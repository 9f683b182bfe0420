import Mathlib.Data.List.Basic
import StagePlay.Proofs.Chain.Alone
import StagePlay.Proofs.Engine.Turns

/-!
# Isolated scripts

Where no two start blocks are for the same actor on the stage, it does not matter whether the chains
of a run have their turns one after the other or all at once, nor in which order.

* `Program.Isolated` is the condition, and `Apart` the invariant: every chain has come as far as it
  would have come by itself in as many steps (`Alone.after`), and whoever has no chain stands where
  the stage was set.
* `Apart.agree`: two runs that have come to their end apart have come to the same end, whatever the
  numbers of steps and the order of turns were.
* `Going.complete`: one after the other, the chains come to their end, if each of them has an end by
  itself.
* `Engine.concurrent_run_agrees` puts them together.
-/

namespace StagePlay

/-- **No two start blocks are for the same actor** on the stage. Several of them may be for one who
is not there, since their chains find nobody to move and so nothing to fight over. -/
def Program.Isolated (p : Program) (set : Stage) : Prop :=
  p.starts.Pairwise fun b b' =>
    Run.ownerOf set b = Run.ownerOf set b' → set.figureOf? (Run.ownerOf set b) = none

/-- Two different start blocks for one owner are for someone who is not there. -/
theorem Program.Isolated.apart {p : Program} {set : Stage} (h : p.Isolated set) {i j : Nat}
    {b b' : Block} (hij : i ≠ j) (hb : p.starts[i]? = some b) (hb' : p.starts[j]? = some b')
    (howner : Run.ownerOf set b = Run.ownerOf set b') :
    set.figureOf? (Run.ownerOf set b) = none := by
  obtain ⟨hi, rfl⟩ := List.getElem?_eq_some_iff.mp hb
  obtain ⟨hj, rfl⟩ := List.getElem?_eq_some_iff.mp hb'
  have hpairs := List.pairwise_iff_getElem.mp h
  rcases Nat.lt_or_gt_of_ne hij with hlt | hlt
  · exact hpairs i j hi hj hlt howner
  · rw [howner]
    exact hpairs j i hj hi hlt howner.symm

theorem Chain.timeless_of_unclocked_eq {c c' : Chain} (h : c'.unclocked = c.unclocked) :
    c'.timeless = c.timeless := by
  change c'.unclocked.timeless = c.unclocked.timeless
  rw [h]

/-- The chain of a start block, by itself on the fresh stage. It begins at time zero, as times do
not matter to what it does. -/
def Alone.ofStart (set : Stage) (b : Block) : Alone := ⟨.ofStart (Run.ownerOf set b) 0 b, set⟩

theorem Alone.owner_after (score : Score) (x : Alone) (n : Nat) :
    (x.after score n).chain.owner = x.chain.owner := by
  induction n with
  | zero => rfl
  | succ n ih => exact (Chain.owner_step rfl _).trans ih

/-! ### The invariant -/

section Apart

variable (score : Score) (set : Stage)

/-- **Chains that go as they would by themselves**, the one of index `i` after `ms i` steps. The
invariant compares each chain with one that has the stage to itself; that it can hold of all of them
at once is what isolation gives. -/
structure Apart (r : Run) (s : Stage) (deeds : List Deed) (ms : Nat → Nat) : Prop where
  /-- Each chain mirrors the one by itself: the same script and state, and the same figure of its
  owner. -/
  chain : ∀ {i : Nat} {b : Block}, score.program.starts[i]? = some b →
    ∃ c, r.chains[i]? = some c ∧ ((Alone.ofStart set b).after score (ms i)).Mirrors c s
  /-- There are no other chains than those of start blocks. -/
  start : ∀ {i : Nat} {c : Chain}, r.chains[i]? = some c → ∃ b, score.program.starts[i]? = some b
  /-- A chain ends by being completed. -/
  completed : ∀ {i : Nat} {c : Chain} {how : Ending}, r.chains[i]? = some c →
    c.ending? = some how → how = .completed
  /-- The stage has the same figures as at the beginning, in the same order. -/
  variation : set.Variation s
  /-- Nobody comes on and nobody leaves. -/
  isSome_eq : ∀ owner, (s.figureOf? owner).isSome = (set.figureOf? owner).isSome
  /-- Whoever has no chain stays. -/
  others : ∀ owner, (∀ b ∈ score.program.starts, Run.ownerOf set b ≠ owner) →
    s.figureOf? owner = set.figureOf? owner
  /-- What was carried out was carried out by one of the chains. -/
  deeds_lt : ∀ d ∈ deeds, d.chain < score.program.starts.length
  /-- A chain has carried out what it would have carried out by itself. -/
  blocks : ∀ {i : Nat} {b : Block}, score.program.starts[i]? = some b →
    (deeds.filter fun d => d.chain = i).map Deed.block =
      (Alone.ofStart set b).blocks score (ms i)

variable {score} {set} {r : Run} {s : Stage} {deeds : List Deed} {ms : Nat → Nat}

/-- At the beginning, no chain has taken a step, and every figure stands where the stage was set. -/
theorem apart_ofScore (number : Nat) (scheduling : Scheduling) (clock : Nat) :
    Apart score set (.ofScore number score scheduling set clock) set [] fun _ => 0 where
  chain := by
    intro i b hb
    refine ⟨.ofStart (Run.ownerOf set b) clock b, ?_, ⟨rfl, rfl⟩⟩
    change (score.program.starts.map _)[i]? = _
    rw [List.getElem?_map, hb]
    rfl
  start := by
    intro i c hc
    change (score.program.starts.map _)[i]? = _ at hc
    rw [List.getElem?_map] at hc
    obtain ⟨b, hb, -⟩ := Option.map_eq_some_iff.mp hc
    exact ⟨b, hb⟩
  completed := by
    intro i c how hc hhow
    change (score.program.starts.map _)[i]? = _ at hc
    rw [List.getElem?_map] at hc
    obtain ⟨b, -, rfl⟩ := Option.map_eq_some_iff.mp hc
    exact absurd hhow (by simp [Chain.ending?, Chain.ofStart])
  variation := .refl set
  isSome_eq _ := rfl
  others _ _ := rfl
  deeds_lt _ h := nomatch h
  blocks _ := rfl

/-- A chain is where its start block would be by itself, after as many steps as it has taken. -/
theorem Apart.mirrors (h : Apart score set r s deeds ms) {i : Nat} {b : Block} {c : Chain}
    (hb : score.program.starts[i]? = some b) (hc : r.chains[i]? = some c) :
    ((Alone.ofStart set b).after score (ms i)).Mirrors c s := by
  obtain ⟨c', hc', hmirrors⟩ := h.chain hb
  obtain rfl : c' = c := Option.some.inj (hc'.symm.trans hc)
  exact hmirrors

theorem Apart.owner_eq (h : Apart score set r s deeds ms) {i : Nat} {b : Block} {c : Chain}
    (hb : score.program.starts[i]? = some b) (hc : r.chains[i]? = some c) :
    c.owner = Run.ownerOf set b :=
  (h.mirrors hb hc).owner_eq.symm.trans (Alone.owner_after _ _ _)

/-- **What one chain does to its figure** leaves another one where it would be by itself. For two
chains have different owners, or one owner who is not on the stage, and then there is no figure to
be altered. -/
theorem Apart.mirrors_alter (hisolated : score.program.Isolated set)
    (h : Apart score set r s deeds ms) {i j : Nat} {b b' : Block} {c c' : Chain} (hij : i ≠ j)
    (hb : score.program.starts[i]? = some b) (hc : r.chains[i]? = some c)
    (hb' : score.program.starts[j]? = some b') (hc' : r.chains[j]? = some c')
    {g : Figure → Figure} (hg : KeepsId g) :
    ((Alone.ofStart set b').after score (ms j)).Mirrors c' (s.alter c.owner g) := by
  refine (h.mirrors hb' hc').alter hg fun hsame => ?_
  -- two chains that share an owner share one who is not on the stage
  have hnobody : set.figureOf? c.owner = none := by
    rw [h.owner_eq hb hc]
    exact hisolated.apart hij hb hb' (by rw [← h.owner_eq hb hc, ← h.owner_eq hb' hc', hsame])
  rw [← Option.isNone_iff_eq_none, ← Option.not_isSome, h.isSome_eq, hnobody]
  rfl

/-- **A chain that takes a step** carries out what it would carry out by itself, and the others
carry out nothing. The list of all deeds grows at its end, and each chain's part of it is found by
filtering. -/
theorem Apart.blocks_step (h : Apart score set r s deeds ms) {i j : Nat} {b b' : Block} {c : Chain}
    (hb : score.program.starts[i]? = some b) (hc : r.chains[i]? = some c)
    (hb' : score.program.starts[j]? = some b') :
    ((deeds ++ ((c.entering? false).map fun b => (⟨i, c.owner, b⟩ : Deed)).toList).filter
        fun d => d.chain = j).map Deed.block =
      (Alone.ofStart set b').blocks score (if j = i then ms i + 1 else ms j) := by
  rw [List.filter_append, List.map_append, h.blocks hb']
  by_cases hij : j = i
  · subst hij
    obtain rfl : b = b' := Option.some.inj (hb.symm.trans hb')
    -- the chain that acts: what it enters is what it would enter by itself
    rw [if_pos rfl]
    change _ = Alone.blocks score _ (ms j) ++ _
    rw [(h.mirrors hb hc).entering?_eq]
    cases c.entering? false with
    | none => rfl
    | some entered => simp
  -- any other one: the deed is not its own
  · rw [if_neg hij]
    cases c.entering? false with
    | none => simp
    | some entered => simp [Ne.symm hij]

/-- **A step of one chain** whose turn it is keeps all of them where they would be by themselves.
The chain itself comes one step further; the others are untouched by what it does to its own figure.
-/
theorem Apart.step_of_mayAct (hpart : score.repertoire.IsPartOf .builtin)
    (hisolated : score.program.Isolated set) (h : Apart score set r s deeds ms)
    (hscore : r.score = score) {i : Nat} {c : Chain} (hc : r.chains[i]? = some c)
    (hmay : r.mayAct i = true) :
    Apart score set (r.step false s i).1 (r.step false s i).2.1
      (deeds ++ (r.deed? false i).toList) fun j => if j = i then ms i + 1 else ms j := by
  obtain ⟨b, hb⟩ := h.start hc
  -- the step puts the figure of the owner through a function, and does nothing else to the stage
  obtain ⟨g, hg, hstage⟩ := @Chain.step_alters score ⟨s, r.operations, false⟩ hpart rfl c
  obtain ⟨hstep, hdeed⟩ := Run.step_of_mayAct hc hmay false s
  rw [hscore] at hstep
  rw [hstep, hdeed]
  refine ⟨?chain, ?start, ?completed, ?variation, ?isSome_eq, ?others, ?deeds_lt, ?blocks⟩
  case chain =>
    intro j b' hb'
    obtain ⟨c', hc', -⟩ := h.chain hb'
    by_cases hij : i = j
    -- the chain that acts takes the step that it would take by itself
    · subst hij
      obtain rfl : c = c' := Option.some.inj (hc.symm.trans hc')
      obtain ⟨d, hd, heq⟩ := Run.chain_after_step hc false s i
      rw [if_pos ⟨rfl, hmay⟩, hscore] at heq
      refine ⟨d, hd, ?_⟩
      rw [if_pos rfl]
      exact ((h.mirrors hb' hc).step hpart _).of_timeless (Chain.timeless_of_unclocked_eq heq)
    -- another chain is as it was, but for its clock, and so is its figure
    · obtain ⟨d, hd, heq⟩ := Run.chain_after_step_of_ne hc' hij false s
      refine ⟨d, hd, ?_⟩
      rw [if_neg (Ne.symm hij), hstage]
      exact (h.mirrors_alter hisolated hij hb hc hb' hc' hg).of_timeless
        (Chain.timeless_of_unclocked_eq heq)
  case start =>
    intro j c' hc'
    obtain ⟨d, hd, -⟩ := Run.chain_before_step hc'
    exact h.start hd
  case completed =>
    intro j c' how hc' hhow
    refine Run.completed_step (by rw [hscore]; exact hpart) s (fun d hd how' hhow' => ?_) i c'
      (List.mem_of_getElem? hc') how hhow
    obtain ⟨k, hk⟩ := List.mem_iff_getElem?.mp hd
    exact h.completed hk hhow'
  case variation =>
    rw [hstage]
    exact h.variation.alter _ hg
  case isSome_eq =>
    intro owner
    rw [hstage, Stage.figureOf?_alter_isSome hg]
    exact h.isSome_eq owner
  case others =>
    intro owner hothers
    -- whoever has no chain is not the owner of this one
    have hne : owner ≠ c.owner := fun heq =>
      hothers b (List.mem_of_getElem? hb) ((h.owner_eq hb hc).symm.trans heq.symm)
    rw [hstage, Stage.figureOf?_alter_of_ne hg hne]
    exact h.others owner hothers
  case deeds_lt =>
    intro d hd
    rcases List.mem_append.mp hd with hd | hd
    · exact h.deeds_lt d hd
    · obtain ⟨b', -, rfl⟩ := Option.map_eq_some_iff.mp (Option.mem_toList.mp hd)
      exact (List.getElem?_eq_some_iff.mp hb).1
  case blocks => exact fun hb' => h.blocks_step hb hc hb'

/-- **A step of a run** keeps its chains where they would be by themselves, with other numbers of
steps. If the chain may act, its own number has grown by one; this is what brings it nearer to its
end below. -/
theorem Apart.step (hpart : score.repertoire.IsPartOf .builtin)
    (hisolated : score.program.Isolated set) (h : Apart score set r s deeds ms)
    (hscore : r.score = score) (i : Nat) :
    ∃ ms', Apart score set (r.step false s i).1 (r.step false s i).2.1
        (deeds ++ (r.deed? false i).toList) ms' ∧
      (r.chains[i]?.isSome → r.mayAct i = true → ms' i = ms i + 1) := by
  by_cases hacts : r.chains[i]?.isSome → r.mayAct i = false
  · obtain ⟨hstep, hdeed⟩ := Run.step_of_not_mayAct hacts false s
    rw [hstep, hdeed]
    refine ⟨ms, by simpa only [Option.toList_none, List.append_nil] using h, fun hsome hmay => ?_⟩
    exact absurd (hmay.symm.trans (hacts hsome)) (by decide)
  · obtain ⟨hsome, hwait⟩ := Classical.not_imp.mp hacts
    have hmay : r.mayAct i = true := by simpa using hwait
    obtain ⟨c, hc⟩ := Option.isSome_iff_exists.mp hsome
    exact ⟨_, h.step_of_mayAct hpart hisolated hscore hc hmay, fun _ _ => if_pos rfl⟩

/-- A chain that has ended stands where it ends by itself: the figure of its owner looks as it would
have without the others. -/
theorem Apart.ended (h : Apart score set r s deeds ms)
    (hall : ∀ c ∈ r.chains, c.ending? = some .completed) {i : Nat} {b : Block}
    (hb : score.program.starts[i]? = some b) :
    ((Alone.ofStart set b).after score (ms i)).chain.ending? = some .completed ∧
      s.figureOf? (Run.ownerOf set b) =
        ((Alone.ofStart set b).after score (ms i)).stage.figureOf? (Run.ownerOf set b) := by
  obtain ⟨c, hc, hmirrors⟩ := h.chain hb
  refine ⟨hmirrors.ending?_eq.trans (hall c (List.mem_of_getElem? hc)), ?_⟩
  rw [← h.owner_eq hb hc]
  exact hmirrors.figure

/-- The deeds of each chain, those of the first chain first. Runs with another order of turns differ
in how these lists are interleaved, and in nothing else. -/
def deedsByChain (n : Nat) (deeds : List Deed) : List Deed :=
  (List.range n).flatMap fun i => deeds.filter fun d => d.chain = i

/-- The deeds by chain are the same deeds in another order, by induction on the number of chains:
what the last one did is taken out, and the others remain. -/
theorem perm_deedsByChain {n : Nat} {deeds : List Deed} (h : ∀ d ∈ deeds, d.chain < n) :
    deeds.Perm (deedsByChain n deeds) := by
  induction n generalizing deeds with
  | zero =>
    cases deeds with
    | nil => exact .refl _
    | cons d deeds => exact absurd (h d List.mem_cons_self) (Nat.not_lt_zero _)
  | succ n ih =>
    have hfirst : ∀ d ∈ deeds.filter (fun d => !decide (d.chain = n)), d.chain < n := by
      intro d hd
      obtain ⟨hmem, hne⟩ := List.mem_filter.mp hd
      have hle := h d hmem
      have hne : d.chain ≠ n := by simpa using hne
      omega
    -- what the last chain did is put behind what the others did
    have hsplit : deedsByChain (n + 1) deeds =
        deedsByChain n (deeds.filter fun d => !decide (d.chain = n)) ++
          deeds.filter fun d => d.chain = n := by
      unfold deedsByChain
      rw [List.range_succ, List.flatMap_append, List.flatMap_singleton]
      congr 1
      refine List.flatMap_congr fun i hi => ?_
      rw [List.filter_filter]
      refine List.filter_congr fun d _ => ?_
      have hne : i ≠ n := Nat.ne_of_lt (List.mem_range.mp hi)
      by_cases hd : d.chain = i
      · simp [hd, hne]
      · simp [hd]
    rw [hsplit]
    have hparts := List.filter_append_perm (fun d => decide (d.chain = n)) deeds
    exact hparts.symm.trans (List.perm_append_comm.trans ((ih hfirst).append_right _))

/-- **Two runs that have ended apart have ended alike**: on the same stage, and having carried out
the same blocks. A chain by itself ends in one way, however many steps it is given, and both runs
have mirrored that. -/
theorem Apart.agree {r' : Run} {s' : Stage} {deeds' : List Deed} {ms' : Nat → Nat}
    (h : Apart score set r s deeds ms) (h' : Apart score set r' s' deeds' ms')
    (hall : ∀ c ∈ r.chains, c.ending? = some .completed)
    (hall' : ∀ c ∈ r'.chains, c.ending? = some .completed) :
    s = s' ∧ (deeds.map Deed.block).Perm (deeds'.map Deed.block) := by
  have hsame : ∀ {i b}, score.program.starts[i]? = some b →
      (Alone.ofStart set b).after score (ms i) = (Alone.ofStart set b).after score (ms' i) ∧
        (Alone.ofStart set b).blocks score (ms i) = (Alone.ofStart set b).blocks score (ms' i) :=
    fun hb => Alone.after_eq_of_ended (h.ended hall hb).1 (h'.ended hall' hb).1
  constructor
  -- the same stage, figure by figure: of those who have a chain, and of all others
  · refine h.variation.ext h'.variation fun owner => ?_
    by_cases howner : ∃ b ∈ score.program.starts, Run.ownerOf set b = owner
    · obtain ⟨b, hmem, rfl⟩ := howner
      obtain ⟨i, hb⟩ := List.mem_iff_getElem?.mp hmem
      rw [(h.ended hall hb).2, (h'.ended hall' hb).2, (hsame hb).1]
    · have hothers : ∀ b ∈ score.program.starts, Run.ownerOf set b ≠ owner :=
        fun b hmem heq => howner ⟨b, hmem, heq⟩
      rw [h.others owner hothers, h'.others owner hothers]
  -- chain by chain, both have carried out the same list
  · have hblocks : (deedsByChain score.program.starts.length deeds).map Deed.block =
        (deedsByChain score.program.starts.length deeds').map Deed.block := by
      unfold deedsByChain
      rw [List.map_flatMap, List.map_flatMap]
      refine List.flatMap_congr fun i hi => ?_
      have hb := List.getElem?_eq_getElem (List.mem_range.mp hi)
      rw [h.blocks hb, h'.blocks hb, (hsame hb).2]
    refine ((perm_deedsByChain h.deeds_lt).map Deed.block).trans ?_
    rw [hblocks]
    exact ((perm_deedsByChain h'.deeds_lt).map Deed.block).symm

/-- A run of chains apart ends when all of them are completed, and is completed itself, with the
operations that it has counted. -/
theorem Apart.result? (h : Apart score set r s deeds ms) {result : Result}
    (hresult : r.result? false = some result) :
    result = .report ⟨.completed, r.operations⟩ ∧ ∀ c ∈ r.chains, c.ending? = some .completed := by
  refine Run.result?_of_completed (fun c hmem how hhow => ?_) hresult
  obtain ⟨i, hc⟩ := List.mem_iff_getElem?.mp hmem
  exact h.completed hc hhow

/-- **A run keeps its chains apart** as long as it is not called off. It is kept together with the
tally, which says that the score is the one the chains by themselves are performed with. -/
theorem account_apart (number : Nat) (scheduling : Scheduling)
    (hpart : score.repertoire.IsPartOf .builtin) (hisolated : score.program.Isolated set) :
    Run.Account fun r s off signals deeds =>
      Run.Tally number score scheduling r s off signals deeds ∧
        (off = false → ∃ ms, Apart score set r s deeds ms) where
  stop h := ⟨(Run.account_tally number score scheduling hpart).stop h.1, fun hoff => nomatch hoff⟩
  chain := by
    intro r s off signals deeds i h
    refine ⟨(Run.account_tally number score scheduling hpart).chain i h.1, ?_⟩
    rintro rfl
    obtain ⟨ms, hapart⟩ := h.2 rfl
    obtain ⟨ms', hafter, -⟩ := hapart.step hpart hisolated h.1.score_eq i
    exact ⟨ms', hafter⟩

end Apart

/-! ### Coming to an end -/

section Going

variable {score : Score} {set : Stage}

/-- **An engine at a run that is not called off**, whose chains have their turns one after the other
and go as they would by themselves. It is what turns are chosen from below, one chain after another.
-/
structure Going (score : Score) (set : Stage) (e : Engine) (r : Run) (ms : Nat → Nat) : Prop where
  performing : e.Performing r
  calledOff_eq : e.guard.calledOff = false
  score_eq : r.score = score
  scheduling_eq : r.scheduling = .sequential
  apart : ∃ deeds, Apart score set r e.stage.stage deeds ms

variable {e : Engine} {r : Run} {ms : Nat → Nat}

theorem Going.step (hpart : score.repertoire.IsPartOf .builtin)
    (hisolated : score.program.Isolated set) (h : Going score set e r ms) (i : Nat) :
    ∃ ms', Going score set (e.step i).1 (r.step false e.stage.stage i).1 ms' ∧
      (r.chains[i]?.isSome → r.mayAct i = true → ms' i = ms i + 1) := by
  obtain ⟨deeds, hapart⟩ := h.apart
  obtain ⟨hperforming, hguard, hstage⟩ := h.performing.step i
  rw [h.calledOff_eq] at hperforming hstage
  obtain ⟨ms', hafter, hms⟩ := hapart.step hpart hisolated h.score_eq i
  refine ⟨ms', ⟨hperforming, ?_, ?_, ?_, ?_⟩, hms⟩
  · rw [hguard, h.calledOff_eq]
  · rw [Run.score_step, h.score_eq]
  · rw [Run.scheduling_step, h.scheduling_eq]
  · rw [hstage]
    exact ⟨_, hafter⟩

/-- **The chain whose turn it is comes to its end**, if it has one by itself. It is given turn after
turn, and the induction is on how many steps it still has to take. -/
theorem Going.complete_chain (hpart : score.repertoire.IsPartOf .builtin)
    (hisolated : score.program.Isolated set) {i n : Nat} {b : Block} {how : Ending}
    (hb : score.program.starts[i]? = some b)
    (hend : ((Alone.ofStart set b).after score n).chain.ending? = some how)
    (h : Going score set e r ms)
    (hbefore : ∀ j c, j < i → r.chains[j]? = some c → c.ending? = some .completed) :
    ∃ turns r' ms', .stop ∉ turns ∧ Going score set (e.play turns).engine r' ms' ∧
      ∀ j c, j < i + 1 → r'.chains[j]? = some c → c.ending? = some .completed := by
  -- with each step, the chain comes nearer to the number of steps that it takes by itself
  induction hleft : n - ms i generalizing e r ms with
  | zero =>
    -- it has taken all its steps, and so has ended as it does by itself
    refine ⟨[], r, ms, List.not_mem_nil, h, fun j c hj hc => ?_⟩
    rcases Nat.lt_succ_iff_lt_or_eq.mp hj with hj | rfl
    · exact hbefore j c hj hc
    obtain ⟨deeds, hapart⟩ := h.apart
    have hmirrors := hapart.mirrors hb hc
    obtain ⟨k, hk⟩ := Nat.exists_eq_add_of_le (Nat.sub_eq_zero_iff_le.mp hleft)
    rw [hk, (Alone.after_add_of_ended hend k).1] at hmirrors
    have hended : c.ending? = some how := hmirrors.ending?_eq.symm.trans hend
    rw [hended, hapart.completed hc hended]
  | succ left ih =>
    have hchain : r.chains[i]?.isSome := by
      obtain ⟨deeds, hapart⟩ := h.apart
      obtain ⟨c, hc, -⟩ := hapart.chain hb
      rw [hc]
      rfl
    have hmay : r.mayAct i = true := (Run.mayAct_of_sequential h.scheduling_eq).mpr hbefore
    obtain ⟨ms₁, h₁, hcount⟩ := h.step hpart hisolated i
    have hless : n - ms₁ i = left := by
      rw [hcount hchain hmay]
      omega
    have hbefore₁ : ∀ j c, j < i → (r.step false e.stage.stage i).1.chains[j]? = some c →
        c.ending? = some .completed := by
      intro j c' hj hc'
      obtain ⟨c, hc, heq⟩ := Run.chain_before_step_of_ne hc' (Nat.ne_of_gt hj)
      rw [Chain.ending?_of_unclocked_eq heq]
      exact hbefore j c hj hc
    obtain ⟨turns, r₂, ms₂, hstop, h₂, hdone⟩ := ih h₁ hbefore₁ hless
    exact ⟨.chain i :: turns, r₂, ms₂, by simpa using hstop, h₂, hdone⟩

/-- **One after the other, the chains come to their end**, if each of them has one by itself. The
induction is on how many of them are completed. -/
theorem Going.complete (hpart : score.repertoire.IsPartOf .builtin)
    (hisolated : score.program.Isolated set)
    (hends : ∀ (i : Nat) (b : Block), score.program.starts[i]? = some b →
      ∃ n how, ((Alone.ofStart set b).after score n).chain.ending? = some how)
    (h : Going score set e r ms) {m : Nat} (hm : m ≤ score.program.starts.length) :
    ∃ turns r' ms', .stop ∉ turns ∧ Going score set (e.play turns).engine r' ms' ∧
      ∀ j c, j < m → r'.chains[j]? = some c → c.ending? = some .completed := by
  induction m with
  | zero => exact ⟨[], r, ms, List.not_mem_nil, h, fun j c hj => absurd hj (Nat.not_lt_zero j)⟩
  | succ m ih =>
    obtain ⟨turns, r₁, ms₁, hstop, h₁, hdone⟩ := ih (Nat.le_of_succ_le hm)
    have hb := List.getElem?_eq_getElem (Nat.lt_of_succ_le hm)
    obtain ⟨n, how, hend⟩ := hends m _ hb
    obtain ⟨turns', r₂, ms₂, hstop', h₂, hdone'⟩ :=
      h₁.complete_chain hpart hisolated hb hend hdone
    refine ⟨turns ++ turns', r₂, ms₂, ?_, ?_, hdone'⟩
    · exact fun hmem => (List.mem_append.mp hmem).elim hstop hstop'
    · rw [Engine.play_append]
      exact h₂

end Going

/-! ### The agreement -/

/-- **Two whole runs that agree** on what is left of them: how they ended and how many blocks they
carried out, the stage, and which unknown operations they announced, in whatever order. -/
structure Engine.Performance.Agrees (x y : Engine.Performance) : Prop where
  result?_eq : x.result? = y.result?
  stage_eq : x.engine.stage.stage = y.engine.stage.stage
  unknowns_perm : (unknowns x.signals).Perm (unknowns y.signals)

namespace Engine

section Agreement

variable {e : Engine} (hidle : e.guard.held = false) (hpart : e.repertoire.IsPartOf .builtin)
  {p : Project} (hstarts : p.program.starts ≠ [])
  (hisolated : p.program.Isolated (.set p.actors p.backdrop)) (clock : Nat)

include hidle hpart hstarts hisolated

/-- **A run of isolated scripts that has ended without a stop** has ended by completing all its
chains, each of which has come as far as it would have by itself. -/
theorem perform_apart {turns : List Turn} (hstop : .stop ∉ turns)
    (hended : (e.perform p clock turns).result?.isSome) :
    ∃ r ms, Apart ⟨p.program, e.repertoire, e.interval⟩ (.set p.actors p.backdrop) r
        (e.perform p clock turns).engine.stage.stage (e.perform p clock turns).deeds ms ∧
      (∀ c ∈ r.chains, c.ending? = some .completed) ∧
      (e.perform p clock turns).result? =
        some (.report ⟨.completed, (e.perform p clock turns).deeds.length⟩) ∧
      unknowns (e.perform p clock turns).signals =
        ((e.perform p clock turns).deeds.map Deed.block).filterMap e.repertoire.unknown? := by
  let score : Score := ⟨p.program, e.repertoire, e.interval⟩
  have hkept : Run.Account _ :=
    account_apart (e.guard.number + 1) e.scheduling (show score.repertoire.IsPartOf _ from hpart)
      (show score.program.Isolated _ from hisolated)
  obtain ⟨r, off, signals, ⟨htally, hapart⟩, hunknowns, hresult, hoff⟩ :=
    account_perform hkept hidle hstarts
      ⟨⟨rfl, rfl, rfl, rfl, rfl⟩, fun _ => ⟨_, apart_ofScore _ _ clock⟩⟩ turns
  obtain rfl := hoff hstop
  obtain ⟨ms, hapart⟩ := hapart rfl
  obtain ⟨result, hsome⟩ := Option.isSome_iff_exists.mp hended
  obtain ⟨rfl, hall⟩ := hapart.result? (hresult.symm.trans hsome)
  refine ⟨r, ms, hapart, hall, ?_, ?_⟩
  · rw [hsome, htally.operations_eq]
  · rw [hunknowns, htally.unknowns_eq, List.filterMap_map]
    rfl

/-- One after the other, the chains of isolated scripts come to their end, if each of them has one
by itself. The turns are found, not assumed, and there is no stop among them. -/
theorem exists_turns_completed (hscheduling : e.scheduling = .sequential)
    (hends : ∀ (i : Nat) (b : Block), p.program.starts[i]? = some b → ∃ n how,
      ((Alone.ofStart (.set p.actors p.backdrop) b).after ⟨p.program, e.repertoire, e.interval⟩
        n).chain.ending? = some how) :
    ∃ turns, .stop ∉ turns ∧ (e.perform p clock turns).result?.isSome := by
  let score : Score := ⟨p.program, e.repertoire, e.interval⟩
  have hstart := start_of_idle hidle p clock hstarts
  have hgoing : Going score (.set p.actors p.backdrop) (e.start p clock).1 (e.firstRun p clock)
      fun _ => 0 := by
    refine ⟨performing_start hidle p clock hstarts, ?_, rfl, hscheduling, [], ?_⟩
    · rw [hstart]
    · rw [hstart]
      exact apart_ofScore _ _ clock
  obtain ⟨turns, r, ms, hstop, h, hdone⟩ := hgoing.complete hpart hisolated hends (Nat.le_refl _)
  refine ⟨turns, hstop, ?_⟩
  rw [perform_of_idle hidle hstarts]
  have hresult : r.result? false = some (.report ⟨.completed, r.operations⟩) := by
    refine Run.result?_eq_completed.mpr ⟨rfl, rfl, fun c hc => ?_⟩
    obtain ⟨j, hj⟩ := List.mem_iff_getElem?.mp hc
    obtain ⟨deeds, hapart⟩ := h.apart
    obtain ⟨b, hb⟩ := hapart.start hj
    exact hdone j c (List.getElem?_eq_some_iff.mp hb).1 hj
  have hconclude := h.performing.conclude_eq.2.2
  rw [h.calledOff_eq, hresult] at hconclude
  rw [hconclude]
  rfl

end Agreement

/-- **All at once or one after the other, isolated scripts come to the same.** Where no two start
blocks are for the same actor on the stage, a run that ends without a stop, whatever its scheduling
and in whatever order its chains have their turns, completes all of them. Then the chains also come
to their end one after the other, and every run of that kind that ends without a stop agrees with the
first one. A program that starts nothing has nothing to complete, and is reported alike. -/
theorem concurrent_run_agrees {e e' : Engine} (hidle : e.guard.held = false)
    (hidle' : e'.guard.held = false) (hscheduling' : e'.scheduling = .sequential)
    (hrepertoire : e'.repertoire = e.repertoire) (hinterval : e'.interval = e.interval)
    (hpart : e.repertoire.IsPartOf .builtin) (p : Project)
    (hisolated : p.program.Isolated (.set p.actors p.backdrop)) (clock clock' : Nat)
    {turns : List Turn} (hstop : .stop ∉ turns)
    (hended : (e.perform p clock turns).result?.isSome) :
    (p.program.starts ≠ [] →
        ∃ n, (e.perform p clock turns).result? = some (.report ⟨.completed, n⟩)) ∧
      (∃ turns', .stop ∉ turns' ∧ (e'.perform p clock' turns').result?.isSome) ∧
      ∀ turns', .stop ∉ turns' → (e'.perform p clock' turns').result?.isSome →
        (e.perform p clock turns).Agrees (e'.perform p clock' turns') := by
  by_cases hstarts : p.program.starts = []
  · -- both runs are over at once, and only set the stage
    obtain ⟨hresult, hstage, hunknowns⟩ := perform_of_nothing hidle p clock hstarts turns
    refine ⟨fun h => absurd hstarts h, ⟨[], List.not_mem_nil, ?_⟩, fun turns' _ _ => ?_⟩
    · rw [(perform_of_nothing hidle' p clock' hstarts []).1]
      rfl
    · obtain ⟨hresult', hstage', hunknowns'⟩ := perform_of_nothing hidle' p clock' hstarts turns'
      exact ⟨hresult.trans hresult'.symm, hstage.trans hstage'.symm,
        by rw [hunknowns, hunknowns']⟩
  obtain ⟨r, ms, hapart, hall, hresult, hunknowns⟩ :=
    perform_apart hidle hpart hstarts hisolated clock hstop hended
  have hpart' : e'.repertoire.IsPartOf .builtin := by rwa [hrepertoire]
  refine ⟨fun _ => ⟨_, hresult⟩, ?_, fun turns' hstop' hended' => ?_⟩
  -- each chain has ended in the first run, so by itself it has an end, and the turns of the other
  -- run can be found
  · refine exists_turns_completed hidle' hpart' hstarts hisolated clock' hscheduling' ?_
    rw [hrepertoire, hinterval]
    exact fun i b hb => ⟨ms i, _, (hapart.ended hall hb).1⟩
  -- both runs have mirrored the same chains to their end
  · obtain ⟨r', ms', hapart', hall', hresult', hunknowns'⟩ :=
      perform_apart hidle' hpart' hstarts hisolated clock' hstop' hended'
    rw [hrepertoire, hinterval] at hapart'
    obtain ⟨hstage, hblocks⟩ := hapart.agree hapart' hall hall'
    refine ⟨?_, hstage, ?_⟩
    · rw [hresult, hresult', ← List.length_map Deed.block, hblocks.length_eq, List.length_map]
    · rw [hunknowns, hunknowns', hrepertoire]
      exact hblocks.filterMap _

/-- Three chains all at once, the last one first in each round of turns. -/
def sampleTogether : List Turn :=
  (List.range 30).flatMap fun _ => [.chain 2, .chain 0, .chain 1]

/-- The sample has isolated scripts, and its chains end all at once in this order of turns; so what
is said above of its runs one after the other holds. -/
theorem sampleTogether_agrees :
    Project.sample.program.Isolated (.set Project.sample.actors Project.sample.backdrop) ∧
      ((sample .concurrent).perform .sample 0 sampleTogether).result?.isSome ∧
      (Project.sample.program.starts ≠ [] → ∃ n,
        ((sample .concurrent).perform .sample 0 sampleTogether).result? =
          some (.report ⟨.completed, n⟩)) ∧
      (∃ turns', .stop ∉ turns' ∧ ((sample .sequential).perform .sample 7 turns').result?.isSome) ∧
      ∀ turns', .stop ∉ turns' → ((sample .sequential).perform .sample 7 turns').result?.isSome →
        ((sample .concurrent).perform .sample 0 sampleTogether).Agrees
          ((sample .sequential).perform .sample 7 turns') := by
  have hisolated :
      Project.sample.program.Isolated (.set Project.sample.actors Project.sample.backdrop) := by
    unfold Program.Isolated
    decide +kernel
  have hstop : .stop ∉ sampleTogether := by simp [sampleTogether]
  have hended : ((sample .concurrent).perform .sample 0 sampleTogether).result?.isSome := by
    decide +kernel
  have hidle : (sample .concurrent).guard.held = false := rfl
  have hidle' : (sample .sequential).guard.held = false := rfl
  exact ⟨hisolated, hended, concurrent_run_agrees hidle hidle' rfl rfl rfl (.refl _) .sample
    hisolated 0 7 hstop hended⟩

end Engine

end StagePlay
