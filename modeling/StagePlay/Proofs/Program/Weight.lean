import Mathlib.Algebra.GroupWithZero.Nat
import StagePlay.Proofs.Program.Walk

/-!
# Weights of a program

How many blocks a program stands for, said of its blocks alone. A block leads along an `Edge` to the
block that comes next, and to its children if it repeats them; a block weighs as much as itself, its
body as often as it is repeated, and what comes next (`Program.IsWeight`).

A program is `Acyclic` if no edges lead back to a block that its start blocks come to. This is so if
and only if its start blocks unfold (`Program.acyclic_iff`): what unfolds gets shorter along every
edge (`Unfolds.edge`), and where no edges lead back, none lead on for ever. Each block of an acyclic
program weighs as much as its unfolding is long (`IsWeight.eq_length`).
-/

namespace StagePlay

open Relation

namespace Program

section

variable (p : Program)

/-- **The edges of a program**: from a block to the next one, and to its children if it repeats
them. They can be seen from the program without following any chain. -/
def Edge (b b' : Block) : Prop :=
  p.next? b = some b' ∨ 0 < b.rounds ∧ ∃ id ∈ b.children, p.find? id = some b'

/-- The blocks that the start blocks come to, along any number of edges. Cycles elsewhere are never
entered. -/
def Comes (b : Block) : Prop := ∃ s ∈ p.starts, ReflTransGen p.Edge s b

/-- **A program without a cycle** that its start blocks come to. -/
def Acyclic : Prop := ∀ b, p.Comes b → ¬TransGen p.Edge b b

/-- The weight of an id: that of its block, if there is one. -/
def weigh (W : Block → Nat) (id : String) : Nat := (p.find? id).elim 0 W

/-- **A weight of the blocks** that the start blocks come to: one for the block itself, its body as
often as it is repeated, and what comes next. Where no cycle is reached it is the number of blocks
that are carried out. -/
def IsWeight (W : Block → Nat) : Prop :=
  ∀ b, p.Comes b → W b = 1 + b.rounds * (b.children.map (p.weigh W)).sum + (p.next? b).elim 0 W

end

variable {p : Program} {b b' : Block} {l : List Block} {ids : List String}

/-- A block is passed to where its edges lead, and nowhere else. Not every edge is taken, as the way
may end before it. -/
theorem Leads.edge {passes : Block → Bool} (h : p.Leads passes b b') : p.Edge b b' := by
  cases h with
  | child _ hrounds hchildren _ _ hid => exact Or.inr ⟨hrounds, _, by rw [hchildren]; simp, hid⟩
  | next _ _ _ hnext => exact Or.inl hnext

/-! ### Unfolding and halting -/

/-- **A way that passes every block halts where its script unfolds**, and only there. -/
theorem halts_iff_performs {ts : List Task} :
    p.Halts (fun _ => true) ts ↔ ∃ l, p.Performs ts l := by
  constructor
  · -- on the way: what the script unfolds to after a step tells what it unfolds to before
    intro h
    induction h with
    | intro ts _ ih =>
      cases ts with
      | nil => exact ⟨[], performs_nil⟩
      | cons t ts =>
        cases t with
        | enter b =>
          -- what the rest unfolds to has the block put in front of it
          obtain ⟨l, hl⟩ := ih _ rfl
          exact ⟨b :: l, hl.of_entered⟩
        | visit id =>
          cases hid : p.find? id with
          | none =>
            obtain ⟨l, hl⟩ := ih _ (walk?_dangling hid ts)
            exact ⟨l, hl.of_dangling hid⟩
          | some b =>
            obtain ⟨l, hl⟩ := ih _ (walk?_found hid ts)
            exact ⟨l, hl.of_found hid⟩
        | rounds b left =>
          cases left with
          | zero =>
            obtain ⟨l, hl⟩ := ih ts rfl
            exact ⟨l, hl.of_spent⟩
          | succ left =>
            obtain ⟨l, hl⟩ := ih _ rfl
            exact ⟨l, hl.of_round⟩
  · -- on the script: each task is passed, since it unfolds
    rintro ⟨l, hl⟩
    induction ts generalizing l with
    | nil => exact .of_none rfl
    | cons t ts ih =>
      obtain ⟨l₁, l₂, ht, hts, rfl⟩ := hl
      exact .of_walks (ht.walks (fun _ _ => rfl) t.stands ts) (ih l₂ hts)

/-! ### Along an edge -/

/-- A block that is visited unfolds, and to no more than all the visits do, since its blocks are
among theirs. -/
theorem Unfolds.of_mem_visits (h : p.Unfolds (.visits ids) l) {id : String} (hid : id ∈ ids)
    (hb : p.find? id = some b) : ∃ l', p.Unfolds (.chain b) l' ∧ l'.length ≤ l.length := by
  induction ids generalizing l with
  | nil => exact absurd hid List.not_mem_nil
  | cons id' ids ih =>
    cases h with
    | dangling hid' hids =>
      rcases List.mem_cons.mp hid with rfl | hid
      · exact absurd (hid'.symm.trans hb) (by simp)
      · exact ih hids hid
    | @visit _ _ _ l₁ l₂ hid' hchain hids =>
      rcases List.mem_cons.mp hid with rfl | hid
      · obtain rfl := Option.some.inj (hid'.symm.trans hb)
        exact ⟨l₁, hchain, by simp⟩
      · obtain ⟨l', hchain', hle⟩ := ih hids hid
        exact ⟨l', hchain', by simp; omega⟩

/-- Rounds are as long as one of them, so many times, since all of them unfold to the same blocks.
-/
theorem Unfolds.length_rounds {n : Nat} (h : p.Unfolds (.rounds ids n) l) :
    n = 0 ∧ l = [] ∨
      0 < n ∧ ∃ round, p.Unfolds (.visits ids) round ∧ l.length = n * round.length := by
  induction n generalizing l with
  | zero =>
    cases h
    exact Or.inl ⟨rfl, rfl⟩
  | succ n ih =>
    cases h with
    | @round _ _ round rest hround hrest =>
      refine Or.inr ⟨Nat.succ_pos n, round, hround, ?_⟩
      rcases ih hrest with ⟨rfl, rfl⟩ | ⟨-, round', hround', hlength⟩
      · simp
      · rw [List.length_append, hlength, hround'.unique hround, Nat.succ_mul, Nat.add_comm]

/-- **What unfolds gets shorter along an edge.** The block itself is missing from what it leads to;
this is why no edges can lead back. -/
theorem Unfolds.edge (h : p.Unfolds (.chain b) l) (hedge : p.Edge b b') :
    ∃ l', p.Unfolds (.chain b') l' ∧ l'.length < l.length := by
  cases h with
  | @chain _ body rest hbody hrest =>
    rcases hedge with hnext | ⟨hrounds, id, hid, hb'⟩
    · -- the next block unfolds to the rest
      obtain ⟨id, hid, hb'⟩ := Option.bind_eq_some_iff.mp hnext
      obtain ⟨l', hl', hle⟩ := hrest.of_mem_visits (Option.mem_toList.mpr hid) hb'
      exact ⟨l', hl', by simp; omega⟩
    · -- a child unfolds to a part of one round, of which there is one at least
      rcases hbody.length_rounds with ⟨hzero, -⟩ | ⟨-, round, hround, hlength⟩
      · omega
      · obtain ⟨l', hl', hle⟩ := hround.of_mem_visits hid hb'
        have hone : round.length ≤ b.rounds * round.length := Nat.le_mul_of_pos_left _ hrounds
        exact ⟨l', hl', by simp; omega⟩

theorem Unfolds.edges (h : p.Unfolds (.chain b) l) (hedges : TransGen p.Edge b b') :
    ∃ l', p.Unfolds (.chain b') l' ∧ l'.length < l.length := by
  induction hedges with
  | single hedge => exact h.edge hedge
  | tail _ hedge ih =>
    obtain ⟨l', hl', hlt⟩ := ih
    obtain ⟨l'', hl'', hlt'⟩ := hl'.edge hedge
    exact ⟨l'', hl'', Nat.lt_trans hlt' hlt⟩

/-- Where the start blocks unfold, so does every block that they come to. -/
theorem Comes.unfolds (h : ∀ s ∈ p.starts, ∃ l, p.Unfolds (.chain s) l) (hb : p.Comes b) :
    ∃ l, p.Unfolds (.chain b) l := by
  obtain ⟨s, hs, hedges⟩ := hb
  obtain ⟨l, hl⟩ := h s hs
  rcases reflTransGen_iff_eq_or_transGen.mp hedges with rfl | hedges
  · exact ⟨l, hl⟩
  · obtain ⟨l', hl', -⟩ := hl.edges hedges
    exact ⟨l', hl'⟩

/-- **A program is acyclic if and only if its start blocks unfold.** In one direction nothing leads
on for ever, so every way ends; in the other an unfolding would have to be shorter than itself. -/
theorem acyclic_iff : p.Acyclic ↔ ∀ s ∈ p.starts, ∃ l, p.Unfolds (.chain s) l := by
  constructor
  · intro h s hs
    have hacc : Acc (fun b' b => p.Edge b b') s := by
      refine acc_of_acyclic (l := p.index.map Prod.snd) ?_ fun b hb => h b ⟨s, hs, hb⟩
      rintro b b' (hnext | ⟨-, id, -, hid⟩)
      · exact mem_of_next? hnext
      · exact mem_of_find? hid
    have hleads : Acc (fun b' b => p.Leads (fun _ => true) b b') s :=
      Subrelation.accessible (fun hleads => hleads.edge) hacc
    -- every block is passed, so coming to an end is unfolding as well
    rcases outcome_of_acc hleads with hhalts | ⟨l, hl, -⟩
    · obtain ⟨_, l, _, hl, -⟩ := halts_iff_performs.mp (hhalts [])
      exact ⟨l, hl⟩
    · exact ⟨l, hl⟩
  · intro h b hb hback
    -- a block that came back to itself would unfold to less than itself
    obtain ⟨l, hl⟩ := hb.unfolds h
    obtain ⟨l', hl', hlt⟩ := hl.edges hback
    exact absurd (hl.unique hl' ▸ hlt) (Nat.lt_irrefl _)

/-! ### Weighing -/

/-- Visits weigh as much as they unfold to, if their blocks do. This is only asked of the blocks
that are found, and with the bound that the induction below needs. -/
theorem Unfolds.weigh_visits {W : Block → Nat} (h : p.Unfolds (.visits ids) l)
    (hW : ∀ id ∈ ids, ∀ b l', p.find? id = some b → p.Unfolds (.chain b) l' →
      l'.length ≤ l.length → W b = l'.length) : (ids.map (p.weigh W)).sum = l.length := by
  induction ids generalizing l with
  | nil =>
    cases h
    rfl
  | cons id ids ih =>
    rw [List.map_cons, List.sum_cons]
    cases h with
    | dangling hid hids =>
      rw [ih hids fun id' hid' => hW id' (List.mem_cons_of_mem _ hid'), weigh, hid]
      exact Nat.zero_add _
    | @visit _ b _ l₁ l₂ hid hchain hids =>
      have hfirst : W b = l₁.length := hW id List.mem_cons_self b l₁ hid hchain (by simp)
      have hrest := ih hids fun id' hid' b l' hb hl' hle =>
        hW id' (List.mem_cons_of_mem _ hid') b l' hb hl' (by simp; omega)
      rw [hrest, weigh, hid, List.length_append]
      exact congrArg (· + _) hfirst

/-- A block weighs as much as it unfolds to, if the blocks that its edges lead to do. All of these
unfold to less than it. -/
theorem Unfolds.weigh_chain {W : Block → Nat} (h : p.Unfolds (.chain b) l)
    (hW : ∀ b' l', p.Edge b b' → p.Unfolds (.chain b') l' → l'.length < l.length →
      W b' = l'.length) :
    1 + b.rounds * (b.children.map (p.weigh W)).sum + (p.next? b).elim 0 W = l.length := by
  cases h with
  | @chain _ body rest hbody hrest =>
    -- without a round there is no edge to the body, and its weight does not count
    have hweight : b.rounds * (b.children.map (p.weigh W)).sum = body.length := by
      rcases hbody.length_rounds with ⟨hzero, rfl⟩ | ⟨hpos, round, hround, hlength⟩
      · rw [hzero, Nat.zero_mul]
        rfl
      · have hone : round.length ≤ b.rounds * round.length := Nat.le_mul_of_pos_left _ hpos
        rw [hlength, hround.weigh_visits fun id hid b' l' hb' hl' hle =>
          hW b' l' (Or.inr ⟨hpos, id, hid, hb'⟩) hl' (by simp; omega)]
    have hnext : (p.next? b).elim 0 W = rest.length := by
      have hvisits := hrest.weigh_visits (W := W) fun id hid b' l' hb' hl' hle =>
        hW b' l' (Or.inl (by rw [next?, Option.mem_toList.mp hid]; exact hb')) hl' (by simp; omega)
      rw [← hvisits]
      unfold next?
      cases b.next with
      | none => rfl
      | some id => exact (Nat.add_zero _).symm
    rw [hweight, hnext]
    simp only [List.length_cons, List.length_append]
    omega

/-- **A block weighs as much as it unfolds to**, by induction on the length of the unfolding. So
there is one weight at most on the blocks that are reached. -/
theorem IsWeight.eq_length {W : Block → Nat} (hW : p.IsWeight W) (hb : p.Comes b)
    (h : p.Unfolds (.chain b) l) : W b = l.length := by
  induction hn : l.length using Nat.strong_induction_on generalizing b l with
  | _ n ih =>
    subst hn
    rw [hW b hb]
    -- the blocks that the edges lead to unfold to less
    refine h.weigh_chain fun b' l' hedge hl' hlt => ?_
    obtain ⟨s, hs, hedges⟩ := hb
    exact ih l'.length hlt ⟨s, hs, hedges.tail hedge⟩ hl' rfl

/-- **The blocks of an acyclic program have weights**: the lengths of their unfoldings. The choice
of an unfolding does not matter, as there is only one. -/
theorem Acyclic.exists_isWeight (h : p.Acyclic) : ∃ W, p.IsWeight W := by
  classical
  -- a block weighs as much as it unfolds to, and nothing if it does not unfold
  let W : Block → Nat := fun b =>
    if hb : ∃ l, p.Unfolds (.chain b) l then hb.choose.length else 0
  have hW : ∀ b l, p.Unfolds (.chain b) l → W b = l.length := by
    intro b l hl
    have hb : ∃ l, p.Unfolds (.chain b) l := ⟨l, hl⟩
    exact (dif_pos hb).trans (congrArg List.length (hb.choose_spec.unique hl))
  refine ⟨W, fun b hb => ?_⟩
  obtain ⟨l, hl⟩ := hb.unfolds (acyclic_iff.mp h)
  rw [hW b l hl]
  exact (hl.weigh_chain fun b' l' _ hl' _ => hW b' l' hl').symm

end Program

end StagePlay
