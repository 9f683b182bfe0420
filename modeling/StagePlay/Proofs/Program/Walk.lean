import Mathlib.Data.Fintype.Card
import Mathlib.Data.Set.Finite.Basic
import Mathlib.Logic.Relation
import StagePlay.Proofs.Program.Unfolding

/-!
# Walking through a program

A chain finds its way in its script without asking anyone: a visit leads to a block, a block to its
body and to the block that comes next, and a round to the children of the block. `Program.walk?` is
one step of this way. Some blocks are passed at once, and at any other one the way halts; which ones
are passed is a parameter, since it is asked in two senses: of the blocks that take no time, and of
all of them.

* `Program.Halts` — the way from a script comes to an end after finitely many steps;
* `Program.Leads` — a block that is passed leads to another one: to a child of it, if the children
  before that one are passed, or to the block that comes next, if the whole body is passed;
* `Program.halts_iff`: a way comes to an end if and only if it comes to no block that leads back to
  itself.

A block that leads nowhere for ever is either halted at or has an unfolding in which every block is
passed (`Program.outcome_of_acc`). That is an induction on where it leads, and on a program, which
has finitely many blocks, leading nowhere for ever means not leading back (`acc_of_acyclic`).
-/

namespace StagePlay

open Relation

/-- **Where nothing leads back, nothing leads on for ever**, if all that is ever led to is in a
list. What can be reached is finite then, and a transitive relation on it that relates nothing to
itself is well-founded. -/
theorem acc_of_acyclic {α : Type} {r : α → α → Prop} {l : List α} (hl : ∀ a b, r a b → b ∈ l)
    {a : α} (hacyclic : ∀ b, ReflTransGen r a b → ¬TransGen r b b) :
    Acc (fun b' b => r b b') a := by
  let T := {b // b ∈ l ∧ ReflTransGen r a b}
  let r' : T → T → Prop := fun b' b => TransGen r b.1 b'.1
  -- a relation of finitely many is well-founded if it is transitive and nothing comes before itself
  have hfinite : Finite T := Set.Finite.subset l.finite_toSet fun _ hb => hb.1
  have htrans : IsTrans T r' := ⟨fun _ _ _ h h' => h'.trans h⟩
  have hirrefl : Std.Irrefl r' := ⟨fun b hb => hacyclic b.1 b.2.2 hb⟩
  have hwf : WellFounded r' := Finite.wellFounded_of_trans_of_irrefl r'
  have hacc : ∀ b : T, Acc (fun b' b => r b b') b.1 := by
    intro b
    induction b using hwf.induction with
    | _ b ih =>
      exact .intro _ fun b' hb' => ih ⟨b', hl _ _ hb', b.2.2.tail hb'⟩ (.single hb')
  exact .intro _ fun b hb => hacc ⟨b, hl _ _ hb, .single hb⟩

theorem Program.mem_of_find? {p : Program} {id : String} {b : Block} (h : p.find? id = some b) :
    b ∈ p.index.map Prod.snd := by
  obtain ⟨before, after, hindex, -⟩ := List.lookup_eq_some_iff.mp h
  exact List.mem_map.mpr ⟨(id, b), by rw [hindex]; simp, rfl⟩

theorem Program.mem_of_next? {p : Program} {b b' : Block} (h : p.next? b = some b') :
    b' ∈ p.index.map Prod.snd := by
  obtain ⟨id, -, hid⟩ := Option.bind_eq_some_iff.mp h
  exact mem_of_find? hid

/-! ### The way of a script -/

/-- A passage of a program as it stands in a script: as one task, or as one for each id that is
visited. -/
inductive Passage.Stands : Passage → List Task → Prop where
  | chain (b : Block) : Stands (.chain b) [.enter b]
  | visits (ids : List String) : Stands (.visits ids) (ids.map .visit)
  | rounds (b : Block) (n : Nat) : Stands (.rounds b.children n) [.rounds b n]

/-- Every task is a passage by itself. -/
theorem Task.stands : ∀ t : Task, t.passage.Stands [t]
  | .enter b => .chain b
  | .visit id => .visits [id]
  | .rounds b left => .rounds b left

namespace Program

section Walk

variable (p : Program) (passes : Block → Bool)

/-- **The next step of a way**: the script after it, or nothing where the way is at its end. That is
at the end of the script, or in front of a block that is not passed. -/
def walk? : List Task → Option (List Task)
  | [] => none
  | .enter b :: ts => if passes b then some (.rounds b b.rounds :: (b.following ++ ts)) else none
  | .visit id :: ts =>
    match p.find? id with
    | none => some ts
    | some b => some (.enter b :: ts)
  | .rounds _ 0 :: ts => some ts
  | .rounds b (left + 1) :: ts => some (b.children.map .visit ++ .rounds b left :: ts)

/-- The way leads from a script to another one, by any number of steps. -/
def Walks : List Task → List Task → Prop := ReflTransGen fun ts ts' => p.walk? passes ts = some ts'

/-- **The way from a script comes to an end** after finitely many steps. As each step is determined
by the script, this is accessibility under the steps. -/
def Halts : List Task → Prop := Acc fun ts' ts => p.walk? passes ts = some ts'

/-- Some blocks that are passed, all of them. -/
def Passed (l : List Block) : Prop := ∀ b ∈ l, passes b = true

/-- **Where a block leads that is passed**: to each child that is visited on the way, and to the
block that comes next, if the way comes to it. Blocks behind one that is not passed are not led to,
since the way has ended before them. -/
inductive Leads (b : Block) : Block → Prop where
  /-- To a child, past the children before it, if there is a round at all. -/
  | child {before after : List String} {id : String} {l : List Block} {b' : Block}
      (hpasses : passes b = true) (hrounds : 0 < b.rounds)
      (hchildren : b.children = before ++ id :: after) (hbefore : p.Unfolds (.visits before) l)
      (hl : Passed passes l) (hid : p.find? id = some b') : Leads b b'
  /-- To the next block, past the whole body. -/
  | next {l : List Block} {b' : Block} (hpasses : passes b = true)
      (hbody : p.Unfolds (.rounds b.children b.rounds) l) (hl : Passed passes l)
      (hnext : p.next? b = some b') : Leads b b'

end Walk

section

variable {p : Program} {passes : Block → Bool} {ts ts' : List Task} {b b' : Block}

theorem Passed.append {l l' : List Block} (h : Passed passes l) (h' : Passed passes l') :
    Passed passes (l ++ l') := fun b hb => (List.mem_append.mp hb).elim (h b) (h' b)

theorem passed_nil : Passed passes [] := fun _ hb => nomatch hb

/-! ### Halting -/

/-- A way that is at its end has come to it. -/
theorem Halts.of_none (h : p.walk? passes ts = none) : p.Halts passes ts :=
  .intro _ fun _ hts => absurd (h.symm.trans hts) (by simp)

/-- A way comes to an end if it does after its next step. -/
theorem Halts.of_some (h : p.walk? passes ts = some ts') (hts : p.Halts passes ts') :
    p.Halts passes ts :=
  .intro _ fun _ hts' => Option.some.inj (h.symm.trans hts') ▸ hts

/-- And so it does if it comes to a script from which it does. -/
theorem Halts.of_walks (h : p.Walks passes ts ts') (hts : p.Halts passes ts') :
    p.Halts passes ts := by
  induction h using ReflTransGen.head_induction_on with
  | refl => exact hts
  | head hstep _ ih => exact .of_some hstep ih

/-- A way that comes to an end does so from everywhere on it. -/
theorem Halts.walks (h : p.Halts passes ts) (hwalks : p.Walks passes ts ts') :
    p.Halts passes ts' := by
  induction hwalks with
  | refl => exact h
  | tail _ hstep ih => exact ih.inv hstep

/-! ### Passing -/

theorem walk?_enter (hb : passes b = true) (ts : List Task) :
    p.walk? passes (.enter b :: ts) = some (.rounds b b.rounds :: (b.following ++ ts)) :=
  if_pos hb

theorem walk?_dangling {id : String} (hid : p.find? id = none) (ts : List Task) :
    p.walk? passes (.visit id :: ts) = some ts := by
  rw [walk?, hid]

theorem walk?_found {id : String} (hid : p.find? id = some b) (ts : List Task) :
    p.walk? passes (.visit id :: ts) = some (.enter b :: ts) := by
  rw [walk?, hid]

/-- **A passage in which every block is passed is passed.** The induction is on the unfolding, which
tells in which order the blocks come, and is as long as the way. -/
theorem Unfolds.walks {q : Passage} {l : List Block} (h : p.Unfolds q l) (hl : Passed passes l)
    {script : List Task} (hscript : q.Stands script) (ts : List Task) :
    p.Walks passes (script ++ ts) ts := by
  induction h generalizing script ts with
  | @chain b body rest _ _ ihbody ihrest =>
    cases hscript
    -- past the block to its rounds, through these to what follows, and through that
    have hb : passes b = true := hl b List.mem_cons_self
    have hbody := ihbody (fun x hx => hl x (by simp [hx])) (.rounds b b.rounds) (b.following ++ ts)
    have hrest := ihrest (fun x hx => hl x (by simp [hx])) (.visits b.next.toList) ts
    exact .head (walk?_enter hb ts) (hbody.trans hrest)
  | nobody =>
    cases hscript
    exact .refl
  | @dangling id ids l hid _ ih =>
    -- nothing is found under the id, and the next one is visited
    cases hscript
    exact .head (walk?_dangling hid _) (ih hl (.visits ids) ts)
  | @visit id b ids l ls hid _ _ ihchain ihids =>
    cases hscript
    have hchain := ihchain (fun x hx => hl x (by simp [hx])) (.chain b) (ids.map .visit ++ ts)
    have hids := ihids (fun x hx => hl x (by simp [hx])) (.visits ids) ts
    exact .head (walk?_found hid _) (hchain.trans hids)
  | spent =>
    cases hscript with
    | rounds b => exact .single rfl
  | @round ids n l ls _ _ ihround ihrounds =>
    cases hscript with
    | rounds b =>
      -- through the children once, and then through the remaining rounds
      have hround := ihround (fun x hx => hl x (by simp [hx])) (.visits b.children)
        (.rounds b n :: ts)
      have hrounds := ihrounds (fun x hx => hl x (by simp [hx])) (.rounds b n) ts
      exact .head rfl (hround.trans hrounds)

/-- The way of a block comes to where the block leads, in one step at least. What stood behind it in
the script stands behind the other block together with what has still to be done on the way. -/
theorem Leads.walks (h : p.Leads passes b b') (ts : List Task) :
    ∃ ts', TransGen (fun ts ts' => p.walk? passes ts = some ts') (.enter b :: ts)
      (.enter b' :: ts') := by
  cases h with
  | @child before after id l _ hpasses hrounds hchildren hbefore hl hid =>
    obtain ⟨left, hleft⟩ := Nat.exists_eq_succ_of_ne_zero (Nat.pos_iff_ne_zero.mp hrounds)
    -- the first round has the child in it, behind those that pass
    have hround : p.walk? passes (.rounds b b.rounds :: (b.following ++ ts)) =
        some (before.map .visit ++ (.visit id :: (after.map .visit ++
          .rounds b left :: (b.following ++ ts)))) := by
      rw [hleft, walk?, hchildren, List.map_append, List.append_assoc]
      rfl
    have hthere := hbefore.walks hl (.visits before)
    exact ⟨_, .head' (walk?_enter hpasses ts) (.head hround ((hthere _).tail (walk?_found hid _)))⟩
  | @next l _ hpasses hbody hl hnext =>
    obtain ⟨id, hid, hfound⟩ := Option.bind_eq_some_iff.mp hnext
    have hfollowing : b.following = [.visit id] := by
      unfold Block.following
      rw [hid]
      rfl
    have hthere := hbody.walks hl (.rounds b b.rounds) (b.following ++ ts)
    rw [hfollowing] at hthere
    refine ⟨ts, .head' (walk?_enter hpasses ts) ?_⟩
    rw [hfollowing]
    exact hthere.tail (walk?_found hfound ts)

/-- And so it comes to wherever it leads from there. -/
theorem walks_of_leads (h : TransGen (p.Leads passes) b b') (ts : List Task) :
    ∃ ts', TransGen (fun ts ts' => p.walk? passes ts = some ts') (.enter b :: ts)
      (.enter b' :: ts') := by
  induction h with
  | single hleads => exact hleads.walks ts
  | tail _ hleads ih =>
    obtain ⟨ts', hthere⟩ := ih
    obtain ⟨ts'', hon⟩ := hleads.walks ts'
    exact ⟨ts'', hthere.trans hon⟩

/-- **The way from a block that leads back to itself never ends.** It comes back to the block, with
more and more behind it, and from there again. -/
theorem not_halts_of_leads (h : TransGen (p.Leads passes) b b) (ts : List Task) :
    ¬p.Halts passes (.enter b :: ts) := by
  intro hhalts
  -- coming back takes several steps, so the induction is on these together
  have hacc := hhalts.transGen
  generalize hscript : Task.enter b :: ts = script at hacc
  induction hacc generalizing ts with
  | intro _ _ ih =>
    subst hscript
    obtain ⟨ts', hback⟩ := walks_of_leads h ts
    exact ih _ (transGen_swap.mpr hback) ts' (hhalts.walks hback.to_reflTransGen) rfl

/-! ### Where the way comes to an end -/

/-- Visits one after the other are visits. -/
theorem Unfolds.visits_append {ids ids' : List String} {l l' : List Block}
    (h : p.Unfolds (.visits ids) l) (h' : p.Unfolds (.visits ids') l') :
    p.Unfolds (.visits (ids ++ ids')) (l ++ l') := by
  induction ids generalizing l with
  | nil =>
    cases h
    exact h'
  | cons id ids ih =>
    cases h with
    | dangling hid hids => exact .dangling hid (ih hids)
    | visit hid hchain hids =>
      rw [List.append_assoc]
      exact .visit hid hchain (ih hids)

/-- Where one round passes, any number of them does, as the children are the same in each. -/
theorem Unfolds.rounds_of_visits {ids : List String} {l : List Block}
    (h : p.Unfolds (.visits ids) l) (hl : Passed passes l) (n : Nat) :
    ∃ l', p.Unfolds (.rounds ids n) l' ∧ Passed passes l' := by
  induction n with
  | zero => exact ⟨[], .spent, passed_nil⟩
  | succ n ih =>
    obtain ⟨l', hrounds, hl'⟩ := ih
    exact ⟨l ++ l', .round h hrounds, hl.append hl'⟩

/-- **What becomes of the way at a passage**: it comes to its end there, whatever follows, or it
passes the passage. It is this either-or that can be put together from the parts of a passage. -/
def Outcome (p : Program) (passes : Block → Bool) (q : Passage) (script : List Task) : Prop :=
  (∀ ts, p.Halts passes (script ++ ts)) ∨ ∃ l, p.Unfolds q l ∧ Passed passes l

/-- Visits come to their end at one of them, or pass them all. Only of those that the way comes to
has something to be known, and that is why the hypothesis has the passed ones before them in it. -/
theorem outcome_visits {ids : List String}
    (h : ∀ before id after l b, ids = before ++ id :: after → p.Unfolds (.visits before) l →
      Passed passes l → p.find? id = some b → p.Outcome passes (.chain b) [.enter b]) :
    p.Outcome passes (.visits ids) (ids.map .visit) := by
  -- what is known of the ids that are left, behind those that are passed
  suffices hrest : ∀ before l, p.Unfolds (.visits before) l → Passed passes l → ∀ rest,
      ids = before ++ rest → p.Outcome passes (.visits rest) (rest.map .visit) from
    hrest [] [] .nobody passed_nil ids rfl
  intro before l hbefore hl rest
  induction rest generalizing before l with
  | nil => exact fun _ => Or.inr ⟨[], .nobody, passed_nil⟩
  | cons id rest ih =>
    intro hids
    have hids' : ids = (before ++ [id]) ++ rest := by simpa using hids
    cases hid : p.find? id with
    | none =>
      -- nothing is there, and the next visit follows
      have hbefore' := hbefore.visits_append (.dangling hid .nobody)
      rw [List.append_nil] at hbefore'
      rcases ih _ _ hbefore' hl hids' with hhalts | ⟨l', hrest, hl'⟩
      · exact Or.inl fun ts => .of_some (walk?_dangling hid _) (hhalts ts)
      · exact Or.inr ⟨l', .dangling hid hrest, hl'⟩
    | some b =>
      -- what is known of `b` is asked for only now that the ids before it have passed
      rcases h before id rest l b hids hbefore hl hid with hhalts | ⟨l', hchain, hl'⟩
      · exact Or.inl fun ts => .of_some (walk?_found hid _) (hhalts _)
      · have hbefore' := hbefore.visits_append (.visit hid hchain .nobody)
        rw [List.append_nil] at hbefore'
        rcases ih _ _ hbefore' (hl.append hl') hids' with hhalts | ⟨l'', hrest, hl''⟩
        · refine Or.inl fun ts => .of_walks ?_ (hhalts ts)
          exact .head (walk?_found hid _) (hchain.walks hl' (.chain b) _)
        · exact Or.inr ⟨l' ++ l'', .visit hid hchain hrest, hl'.append hl''⟩

/-- Rounds come to their end in the first of them, or pass. Where there are none, nothing need be
known of the children. -/
theorem outcome_rounds {n : Nat}
    (h : 0 < n → p.Outcome passes (.visits b.children) (b.children.map .visit)) :
    p.Outcome passes (.rounds b.children n) [.rounds b n] := by
  cases n with
  | zero => exact Or.inr ⟨[], .spent, passed_nil⟩
  | succ n =>
    rcases h (Nat.succ_pos n) with hhalts | ⟨l, hround, hl⟩
    · exact Or.inl fun ts => .of_some rfl (hhalts _)
    · exact Or.inr (hround.rounds_of_visits hl _)

/-- **A block that leads nowhere for ever** is where the way ends, or is passed with all that
follows from it. The induction is on where it leads: its children as far as they are reached, and
its next block behind a passed body. -/
theorem outcome_of_acc (h : Acc (fun b' b => p.Leads passes b b') b) :
    p.Outcome passes (.chain b) [.enter b] := by
  induction h with
  | intro b _ ih =>
    cases hb : passes b with
    -- the block is not passed, so the way ends right here
    | false => exact Or.inl fun ts => .of_none (if_neg (by simp [hb]))
    | true => ?_
    -- a child is known of by `ih`, since `b` leads to it
    have hbody : p.Outcome passes (.rounds b.children b.rounds) [.rounds b b.rounds] :=
      outcome_rounds fun hrounds =>
        outcome_visits fun before id after l b' hchildren hbefore hl hid =>
          ih b' (.child hb hrounds hchildren hbefore hl hid)
    rcases hbody with hhalts | ⟨body, hbody, hl⟩
    · exact Or.inl fun ts => .of_some (walk?_enter hb ts) (hhalts _)
    have hpassed : ∀ ts, p.Walks passes (.enter b :: ts) (b.next.toList.map .visit ++ ts) :=
      fun ts => .head (walk?_enter hb ts) (hbody.walks hl (.rounds b b.rounds) _)
    -- and so is the next block, once the body has passed
    have hnext : p.Outcome passes (.visits b.next.toList) (b.next.toList.map .visit) := by
      refine outcome_visits fun before id after l b' hids hbefore hl' hid => ?_
      have hfirst : b.next = some id := Option.mem_toList.mp (by rw [hids]; simp)
      exact ih b' (.next hb hbody hl (by rw [next?, hfirst]; exact hid))
    rcases hnext with hhalts | ⟨rest, hrest, hl'⟩
    · exact Or.inl fun ts => .of_walks (hpassed ts) (hhalts ts)
    · exact Or.inr ⟨_, .chain hbody hrest, fun x hx => (List.mem_cons.mp hx).elim (· ▸ hb)
        ((hl.append hl') x)⟩

section Nowhere

variable (h : ∀ b ts', p.Walks passes ts (.enter b :: ts') → ¬TransGen (p.Leads passes) b b)

include h

/-- The way ends at a block that it comes to, or passes it, if none of these blocks leads back to
itself. The blocks it can come to from there are on the way too. -/
theorem outcome_of_walks (hwalks : p.Walks passes ts (.enter b :: ts')) :
    p.Outcome passes (.chain b) [.enter b] := by
  refine outcome_of_acc (acc_of_acyclic (l := p.index.map Prod.snd) ?_ ?_)
  · -- a block leads to blocks of the program, which are finitely many
    intro b b' hleads
    cases hleads with
    | child _ _ _ _ _ hid => exact mem_of_find? hid
    | next _ _ _ hnext => exact mem_of_next? hnext
  · -- and the way comes to all of them
    intro b' hleads
    rcases reflTransGen_iff_eq_or_transGen.mp hleads with rfl | hleads
    · exact h _ ts' hwalks
    · obtain ⟨ts'', hthere⟩ := walks_of_leads hleads ts'
      exact h b' ts'' (hwalks.trans hthere.to_reflTransGen)

theorem outcome_visits_of_walks {ids : List String}
    (hwalks : p.Walks passes ts (ids.map .visit ++ ts')) :
    p.Outcome passes (.visits ids) (ids.map .visit) := by
  refine outcome_visits fun before id after l b hids hbefore hl hid => ?_
  rw [hids, List.map_append, List.append_assoc] at hwalks
  have hthere := hwalks.trans (hbefore.walks hl (.visits before) _)
  exact outcome_of_walks h (hthere.tail (walk?_found hid _))

theorem outcome_task {t : Task} (hwalks : p.Walks passes ts (t :: ts')) :
    p.Outcome passes t.passage [t] := by
  cases t with
  | enter b => exact outcome_of_walks h hwalks
  | visit id =>
    have hvisits : p.Walks passes ts ([id].map .visit ++ ts') := hwalks
    exact outcome_visits_of_walks h hvisits
  | rounds b left =>
    refine outcome_rounds fun hpos => ?_
    obtain ⟨left, rfl⟩ := Nat.exists_eq_succ_of_ne_zero (Nat.pos_iff_ne_zero.mp hpos)
    exact outcome_visits_of_walks h (hwalks.tail rfl)

end Nowhere

/-- **A way comes to an end** if and only if it comes to no block that leads back to itself. In one
direction a way back is walked again and again; in the other each task of the script is passed in
turn. -/
theorem halts_iff : p.Halts passes ts ↔
    ∀ b ts', p.Walks passes ts (.enter b :: ts') → ¬TransGen (p.Leads passes) b b := by
  refine ⟨fun h b ts' hwalks hback => not_halts_of_leads hback ts' (h.walks hwalks), fun h => ?_⟩
  -- on the tasks that are left: the way ends in the first of them, or comes to the others
  suffices hrest : ∀ rest, p.Walks passes ts rest → p.Halts passes rest from hrest ts .refl
  intro rest
  induction rest with
  | nil => exact fun _ => .of_none rfl
  | cons t rest ih =>
    intro hwalks
    rcases outcome_task h hwalks with hhalts | ⟨l, hpassage, hl⟩
    · exact hhalts rest
    · have hthere := hpassage.walks hl t.stands rest
      exact .of_walks hthere (ih (hwalks.trans hthere))

end

end Program

end StagePlay
