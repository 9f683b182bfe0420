import StagePlay.Proofs.Engine.Turns

/-!
# Stopping

A stop that finds every chain at rest freezes the run. From then on nothing is shown and nothing is
said, no block is carried out, and the stage stays as it is. A chain that has its turn is called
off, from however deep in repeated bodies it was, and rests no more; and when the run ends, it is
reported stopped.

* `Chain.isAtRest` — whether a chain waits, has ended or has not begun; `Chain.Halts` — what becomes
  of such a chain after a stop, and `Run.Halts` the same of a run.
* `Run.halts_step` is the one step, and `Engine.Performing.halts_play` the turns after a stop.
* `Engine.stop_freezes` is all of it, for a stop at any time of any run.
-/

namespace StagePlay

/-! ### Chains at rest -/

namespace Chain

/-- Whether a chain waits, has ended, or has not begun. A chain that suspends at all suspends in one
of these states, so between the turns of a real run every chain is at rest; a chain that is on its
way through its script is not. -/
def isAtRest (c : Chain) : Bool :=
  match c.state, c.script with
  | .walking, [.enter _] => true
  | .walking, _ => false
  | .resting _, _ => true
  | .ended _, _ => true

/-- **What becomes of a chain after a stop**: it stays as it is, whatever its clock says, or it is
called off. -/
def Halts (c c' : Chain) : Prop :=
  c'.unclocked = c.unclocked ∨
    c.ending? = none ∧ c'.unclocked = (c.finish .cancelled).unclocked

variable {c c' c'' : Chain}

theorem isAtRest_of_unclocked_eq (h : c'.unclocked = c.unclocked) :
    c'.isAtRest = c.isAtRest := by
  change c'.unclocked.isAtRest = c.unclocked.isAtRest
  rw [h]

theorem Halts.ending? (h : c.Halts c') :
    c'.ending? = c.ending? ∨ c.ending? = none ∧ c'.ending? = some .cancelled := by
  rcases h with h | ⟨hc, h⟩
  · exact Or.inl (ending?_of_unclocked_eq h)
  · exact Or.inr ⟨hc, ending?_of_unclocked_eq (c := c.finish .cancelled) h⟩

theorem Halts.trans (h : c.Halts c') (h' : c'.Halts c'') : c.Halts c'' := by
  rcases h with h | ⟨hc, h⟩
  · rcases h' with h' | ⟨hc', h'⟩
    -- it stays as it is, and is called off later or not at all
    · exact Or.inl (h'.trans h)
    · refine Or.inr ⟨(ending?_of_unclocked_eq h).symm.trans hc', h'.trans ?_⟩
      change ({ c'.unclocked with state := .ended .cancelled } : Chain) = _
      rw [h]
      rfl
  · rcases h' with h' | ⟨hc', -⟩
    · exact Or.inr ⟨hc, h'.trans h⟩
    · -- a chain that was called off has ended
      have hended := ending?_of_unclocked_eq (c := c.finish .cancelled) h
      exact absurd (hended.symm.trans hc') (by simp [finish, Chain.ending?])

theorem Halts.isAtRest (h : c.Halts c') (hc : c.isAtRest = true) : c'.isAtRest = true := by
  rcases h with h | ⟨-, h⟩
  · exact (isAtRest_of_unclocked_eq h).trans hc
  · exact isAtRest_of_unclocked_eq (c := c.finish .cancelled) h

section Step

variable {score : Score} {scene : Scene}

/-- **A chain at rest that is called off** ends at once. Of the steps of a chain that is called off
only two are those of a chain at rest: it has ended already, or it is ended now. -/
theorem step_of_isAtRest (hcalled : scene.cancelled = true) (hrest : c.isAtRest = true) :
    (c.step score scene).1 = if c.ending? = none then c.finish .cancelled else c := by
  refine c.step_cases_of_cancelled hcalled
    (motive := fun done => done.1 = if c.ending? = none then c.finish .cancelled else c)
    ?ended ?calledOff ?finish ?dangling ?found ?spent
  case ended =>
    intro how hstate
    rw [if_neg (by rw [ending?_eq_some.mpr hstate]; exact nofun)]
  case calledOff =>
    intro hending
    rw [if_pos hending]
  -- any other step finds the way in a script that has begun
  case finish => exact fun hstate hscript => absurd hrest (by simp [isAtRest, hstate, hscript])
  case dangling =>
    exact fun _ _ hstate hscript _ => absurd hrest (by simp [isAtRest, hstate, hscript])
  case found =>
    exact fun _ _ _ hstate hscript _ => absurd hrest (by simp [isAtRest, hstate, hscript])
  case spent =>
    exact fun _ _ hstate hscript => absurd hrest (by simp [isAtRest, hstate, hscript])

/-- A chain of the language does not break down, whether it is called off or not. Nothing in the
language breaks a chain down, and calling it off ends it in another way. -/
theorem ending?_step_ne_broken (hpart : score.repertoire.IsPartOf .builtin)
    (h : c.ending? ≠ some .broken) : (c.step score scene).1.ending? ≠ some .broken := by
  intro hbroken
  cases hending : c.ending? with
  | some how =>
    rw [step_of_ending hending] at hbroken
    exact h hbroken
  | none => ?_
  cases hcalled : scene.cancelled with
  | false =>
    -- not called off, it can only be completed
    have hdone := (c.step_ended hpart hcalled (ending?_eq_some.mp hbroken) hending).1
    exact absurd hdone (by decide)
  | true =>
    revert hbroken
    have hwalks : ∀ {c' : Chain}, c'.state = .walking → c'.ending? ≠ some .broken := fun hstate h =>
      nomatch hstate.symm.trans (ending?_eq_some.mp h)
    refine c.step_cases_of_cancelled hcalled (motive := fun done => done.1.ending? ≠ some .broken)
      ?ended ?calledOff ?finish ?dangling ?found ?spent
    case ended => exact fun _ _ => h
    case calledOff => exact fun _ => nofun
    case finish => exact fun _ _ => nofun
    -- it walks on, so it has not ended
    case dangling => exact fun _ _ hstate _ _ => hwalks hstate
    case found => exact fun _ _ _ hstate _ _ => hwalks hstate
    case spent => exact fun _ _ hstate _ => hwalks hstate

end Step

end Chain

/-! ### Runs at rest -/

namespace Run

/-- **What becomes of a run after a stop**: its chains halt, and nothing more is carried out. Chains
are matched in both directions, as none is added and none is lost. -/
structure Halts (r r' : Run) : Prop where
  number_eq : r'.number = r.number
  scheduling_eq : r'.scheduling = r.scheduling
  operations_eq : r'.operations = r.operations
  after : ∀ {i : Nat} {c : Chain}, r.chains[i]? = some c →
    ∃ c', r'.chains[i]? = some c' ∧ c.Halts c'
  before : ∀ {i : Nat} {c' : Chain}, r'.chains[i]? = some c' →
    ∃ c, r.chains[i]? = some c ∧ c.Halts c'

variable {r r' r'' : Run}

theorem Halts.refl (r : Run) : r.Halts r where
  number_eq := rfl
  scheduling_eq := rfl
  operations_eq := rfl
  after hc := ⟨_, hc, Or.inl rfl⟩
  before hc := ⟨_, hc, Or.inl rfl⟩

theorem Halts.trans (h : r.Halts r') (h' : r'.Halts r'') : r.Halts r'' where
  number_eq := h'.number_eq.trans h.number_eq
  scheduling_eq := h'.scheduling_eq.trans h.scheduling_eq
  operations_eq := h'.operations_eq.trans h.operations_eq
  after hc := by
    obtain ⟨c', hc', hhalts⟩ := h.after hc
    obtain ⟨c'', hc'', hhalts'⟩ := h'.after hc'
    exact ⟨c'', hc'', hhalts.trans hhalts'⟩
  before hc'' := by
    obtain ⟨c', hc', hhalts'⟩ := h'.before hc''
    obtain ⟨c, hc, hhalts⟩ := h.before hc'
    exact ⟨c, hc, hhalts.trans hhalts'⟩

theorem Halts.isAtRest (h : r.Halts r') (hrest : ∀ c ∈ r.chains, c.isAtRest = true) :
    ∀ c ∈ r'.chains, c.isAtRest = true := by
  intro c' hmem
  obtain ⟨i, hc'⟩ := List.mem_iff_getElem?.mp hmem
  obtain ⟨c, hc, hhalts⟩ := h.before hc'
  exact hhalts.isAtRest (hrest c (List.mem_of_getElem? hc))

/-- What halts does not break down. -/
theorem Halts.unbroken (h : r.Halts r') (hunbroken : ∀ c ∈ r.chains, c.ending? ≠ some .broken) :
    ∀ c ∈ r'.chains, c.ending? ≠ some .broken := by
  intro c' hmem
  obtain ⟨i, hc'⟩ := List.mem_iff_getElem?.mp hmem
  obtain ⟨c, hc, hchain⟩ := h.before hc'
  rcases hchain.ending? with heq | ⟨-, heq⟩
  · rw [heq]
    exact hunbroken c (List.mem_of_getElem? hc)
  · rw [heq]
    decide

/-- A stop changes nothing about whose turn it can be: chains that were completed stay so, and a
chain that is called off is not completed. -/
theorem Halts.mayAct_eq (h : r.Halts r') (i : Nat) : r'.mayAct i = true ↔ r.mayAct i = true := by
  cases hscheduling : r.scheduling with
  | concurrent =>
    exact iff_of_true (mayAct_of_concurrent (h.scheduling_eq.trans hscheduling) i)
      (mayAct_of_concurrent hscheduling i)
  | sequential =>
    rw [mayAct_of_sequential hscheduling,
      mayAct_of_sequential (h.scheduling_eq.trans hscheduling)]
    constructor
    · intro hall j c hj hc
      obtain ⟨c', hc', hhalts⟩ := h.after hc
      have hcompleted := hall j c' hj hc'
      rcases hhalts.ending? with heq | ⟨-, heq⟩
      · exact heq.symm.trans hcompleted
      · exact absurd (heq.symm.trans hcompleted) (by decide)
    · intro hall j c' hj hc'
      obtain ⟨c, hc, hhalts⟩ := h.before hc'
      have hcompleted := hall j c hj hc
      rcases hhalts.ending? with heq | ⟨heq, -⟩
      · exact heq.trans hcompleted
      · exact absurd (heq.symm.trans hcompleted) (by decide)

/-- A chain of a run that is called off, before and after a step: it halts, and if the step was its
own, it has ended. -/
theorem halts_chain_step (hrest : ∀ c ∈ r.chains, c.isAtRest = true) (s : Stage) (i j : Nat)
    {c c' : Chain} (hc : r.chains[j]? = some c) (hc' : (r.step true s i).1.chains[j]? = some c') :
    c.Halts c' ∧ (i = j → r.mayAct i = true → c'.ending?.isSome) := by
  have hstep := r.getElem?_step true s i j
  rw [hc, hc', Option.map_some, Option.map_some, Option.some.injEq,
    Chain.step_of_isAtRest rfl (hrest c (List.mem_of_getElem? hc))] at hstep
  -- the chain whose turn it is ends, if it had not; any other one stays as it is
  split at hstep
  · cases hending : c.ending? with
    | none =>
      rw [if_pos hending] at hstep
      refine ⟨Or.inr ⟨hending, hstep⟩, fun _ _ => ?_⟩
      rw [Chain.ending?_of_unclocked_eq hstep]
      rfl
    | some how =>
      rw [if_neg (by rw [hending]; simp)] at hstep
      refine ⟨Or.inl hstep, fun _ _ => ?_⟩
      rw [Chain.ending?_of_unclocked_eq hstep, hending]
      rfl
  · next hnot => exact ⟨Or.inl hstep, fun hi hmay => absurd ⟨hi, hmay⟩ hnot⟩

/-- **A step of a run that is called off**, with every chain at rest, halts it. -/
theorem halts_step (hrest : ∀ c ∈ r.chains, c.isAtRest = true) (s : Stage) (i : Nat) :
    r.Halts (r.step true s i).1 ∧ (r.step true s i).2 = (s, []) ∧ r.deed? true i = none := by
  have hquiet : (r.step true s i).1.operations = r.operations ∧ (r.step true s i).2 = (s, []) ∧
      r.deed? true i = none := by
    refine r.step_cases true s i (motive := fun after deed? =>
      after.1.operations = r.operations ∧ after.2 = (s, []) ∧ deed? = none) ?idle ?acting
    case idle => exact fun _ => ⟨rfl, rfl, rfl⟩
    case acting =>
      -- the acting chain does nothing to the scene and carries out no block
      intro cs c cs' cs'' _ _ _ _
      have hnothing : (c.step r.score ⟨s, r.operations, true⟩).2 = (⟨s, r.operations, true⟩, []) :=
        c.step_of_cancelled rfl
      rw [hnothing, Chain.entering?_true]
      exact ⟨rfl, rfl, rfl⟩
  refine ⟨⟨r.number_step _ _ _, r.scheduling_step _ _ _, hquiet.1, ?_, ?_⟩, hquiet.2⟩
  · intro j c hc
    obtain ⟨c', hc', -⟩ := chain_after_step hc true s i
    exact ⟨c', hc', (halts_chain_step hrest s i j hc hc').1⟩
  · intro j c' hc'
    obtain ⟨c, hc, -⟩ := chain_before_step hc'
    exact ⟨c, hc, (halts_chain_step hrest s i j hc hc').1⟩

/-- What halts keeps the run as it was when it was called off. Chains at rest stay at rest, so the
step lemma applies again and again. -/
theorem account_halts (hrest : ∀ c ∈ r.chains, c.isAtRest = true) :
    Run.Account fun r' _ off signals deeds =>
      off = true ∧ r.Halts r' ∧ signals = [] ∧ deeds = [] where
  stop h := ⟨rfl, h.2⟩
  chain := by
    rintro r' s _ _ _ i ⟨rfl, hhalts, rfl, rfl⟩
    obtain ⟨hstep, hquiet, hdeed⟩ := halts_step (hhalts.isAtRest hrest) s i
    rw [hquiet, hdeed]
    exact ⟨rfl, hhalts.trans hstep, rfl, rfl⟩

/-! ### The end of a run that is called off -/

/-- A run that is called off is reported stopped, if it ends and does not break down. -/
theorem result?_of_calledOff (hbroken : ∀ c ∈ r.chains, c.ending? ≠ some .broken) :
    r.result? true = none ∨ r.result? true = some (.report ⟨.stopped, r.operations⟩) := by
  unfold result?
  -- one after the other, and all at once
  split
  · split
    · exact Or.inr rfl
    · next c hfind =>
      split
      · exact Or.inl rfl
      · next hending => exact absurd hending (hbroken c (List.mem_of_find?_eq_some hfind))
      · exact Or.inr rfl
  · split
    · exact Or.inr rfl
    · exact Or.inl rfl

/-- A run has ended when every chain has whose turn it could be. One after the other these are the
completed ones and the first that is not; all at once they are all chains. -/
theorem result?_isSome {off : Bool}
    (h : ∀ i c, r.chains[i]? = some c → r.mayAct i = true → c.ending?.isSome) :
    (r.result? off).isSome := by
  unfold result?
  split
  · next hscheduling =>
    split
    · rfl
    · next c hfind =>
      -- the first chain that is not completed has had its turn
      obtain ⟨-, cs, cs', hchains, hcs⟩ := List.find?_eq_some_iff_append.mp hfind
      have hc : r.chains[cs.length]? = some c := by
        rw [hchains, List.getElem?_append_right (Nat.le_refl _), Nat.sub_self]
        rfl
      have hmay : r.mayAct cs.length = true := by
        refine (mayAct_of_sequential hscheduling).mpr fun j d hj hd => ?_
        rw [hchains, List.getElem?_append_left hj] at hd
        simpa using hcs d (List.mem_of_getElem? hd)
      have hended := h _ c hc hmay
      split
      · next hending => exact absurd hended (by rw [hending]; decide)
      · rfl
      · rfl
  · next hscheduling =>
    have hall : r.chains.all (fun c => c.ending?.isSome) = true := by
      refine List.all_eq_true.mpr fun c hc => ?_
      obtain ⟨i, hi⟩ := List.mem_iff_getElem?.mp hc
      exact h i c hi (mayAct_of_concurrent hscheduling i)
    rw [if_pos hall]
    rfl

/-- A run that halts has ended when each chain has that could have had a turn at the stop. -/
theorem Halts.result?_isSome (h : r.Halts r') {off : Bool}
    (hended : ∀ i c', i < r.chains.length → r.mayAct i = true → r'.chains[i]? = some c' →
      c'.ending?.isSome) : (r'.result? off).isSome := by
  refine Run.result?_isSome fun i c' hc' hmay => ?_
  obtain ⟨c, hc, -⟩ := h.before hc'
  exact hended i c' (List.getElem?_eq_some_iff.mp hc).1 ((h.mayAct_eq i).mp hmay) hc'

/-- A run of the language does not break down. -/
theorem account_unbroken {score : Score} (hpart : score.repertoire.IsPartOf .builtin) :
    Run.Account fun r _ _ _ _ => r.score = score ∧ ∀ c ∈ r.chains, c.ending? ≠ some .broken where
  stop h := h
  chain := by
    rintro r s off _ _ i ⟨hscore, hunbroken⟩
    refine ⟨(r.score_step off s i).trans hscore, forall_chains_step ?clock ?step hunbroken i⟩
    case clock =>
      intro c c' heq hbefore
      rwa [Chain.ending?_of_unclocked_eq heq]
    case step =>
      exact fun c hbefore => Chain.ending?_step_ne_broken (by rw [hscore]; exact hpart) hbefore

end Run

/-! ### Engines that are called off -/

namespace Engine.Performing

variable {e : Engine} {r : Run}

theorem stop (h : e.Performing r) : e.stop.Performing r ∧ e.stop.guard.calledOff = true := by
  rw [h.stop_eq]
  exact ⟨⟨h.run_eq, h.held, h.number_eq⟩, rfl⟩

/-- **Turns after a stop** halt the run, and do nothing else: no signal is sent, no block carried
out, and the stage stays as it is. -/
theorem halts_play (h : e.Performing r) (hoff : e.guard.calledOff = true)
    (hrest : ∀ c ∈ r.chains, c.isAtRest = true) (ts : List Turn) :
    ∃ r', (e.play ts).engine.Performing r' ∧ (e.play ts).engine.guard.calledOff = true ∧
      r.Halts r' ∧ (e.play ts).signals = [] ∧ (e.play ts).deeds = [] ∧
      (e.play ts).engine.stage = e.stage := by
  obtain ⟨r', hr', hcalled, hhalts, hsignals, hdeeds⟩ :=
    h.account (Run.account_halts hrest) ts [] [] ⟨hoff, .refl r, rfl, rfl⟩
  rw [List.nil_append] at hsignals hdeeds
  refine ⟨r', hr', hcalled, hhalts, hsignals, hdeeds, ?_⟩
  rw [h.stage_play ts, hsignals]
  rfl

/-- After a stop, a chain that has its turn comes to its end. The turns are taken apart at the turn
of the chain: before it the run has halted, with it the chain ends, and after it the chain stays
where it is. -/
theorem ending?_halts_play (h : e.Performing r) (hoff : e.guard.calledOff = true)
    (hrest : ∀ c ∈ r.chains, c.isAtRest = true) {ts : List Turn} {i : Nat} (hi : .chain i ∈ ts)
    (hmay : r.mayAct i = true) {r' : Run} (hr' : (e.play ts).engine.run? = some r') {c' : Chain}
    (hc' : r'.chains[i]? = some c') : c'.ending?.isSome := by
  obtain ⟨earlier, later, rfl⟩ := List.append_of_mem hi
  obtain ⟨r₁, h₁, hoff₁, hhalts₁, -⟩ := h.halts_play hoff hrest earlier
  have hrest₁ := hhalts₁.isAtRest hrest
  rw [play_append, play_cons, turn_chain] at hr'
  -- the run after the turn of the chain, and from there to the end
  obtain ⟨h₂, hguard, -⟩ := h₁.step i
  rw [hoff₁] at h₂
  obtain ⟨hstep, -⟩ := Run.halts_step hrest₁ (e.play earlier).engine.stage.stage i
  obtain ⟨r₃, h₃, -, hhalts₃, -⟩ := h₂.halts_play (by rw [hguard, hoff₁]) (hstep.isAtRest hrest₁) later
  obtain rfl : r₃ = r' := Option.some.inj (h₃.run_eq.symm.trans hr')
  obtain ⟨c₂, hc₂, hhalts⟩ := hhalts₃.before hc'
  obtain ⟨c₁, hc₁, -⟩ := hstep.before hc₂
  have hended := (Run.halts_chain_step hrest₁ _ i i hc₁ hc₂).2 rfl ((hhalts₁.mayAct_eq i).mpr hmay)
  rcases hhalts.ending? with heq | ⟨-, heq⟩
  · rw [heq]
    exact hended
  · rw [heq]
    rfl

end Engine.Performing

/-- **A run that a stop has frozen**, after some more turns. -/
structure Engine.Frozen (e : Engine) (r : Run) (turns : List Turn) : Prop where
  /-- No frame is published, no unknown operation is announced, and no block is carried out. -/
  signals_eq : (e.stop.play turns).signals = []
  deeds_eq : (e.stop.play turns).deeds = []
  stage_eq : (e.stop.play turns).engine.stage = e.stage
  /-- No operation is counted, and every chain stays as it is or is called off. One that had a turn
  is at its end. -/
  run : ∃ r', (e.stop.play turns).engine.run? = some r' ∧ r.Halts r' ∧
    ∀ i c', .chain i ∈ turns → r.mayAct i = true → r'.chains[i]? = some c' → c'.ending?.isSome
  /-- If the run ends, it is reported stopped, without any further ado. -/
  conclude : (e.stop.play turns).engine.conclude = ((e.stop.play turns).engine, [], none) ∨
    (e.stop.play turns).engine.conclude = ((e.stop.play turns).engine.abandon,
      [.event (.runFinished r.number .stopped)], some (.report ⟨.stopped, r.operations⟩))
  /-- The run ends once every chain has had a turn. -/
  ends : (∀ i < r.chains.length, .chain i ∈ turns) →
    (e.stop.play turns).engine.conclude.2.2 = some (.report ⟨.stopped, r.operations⟩)

/-- **A stop freezes the run**, wherever its chains are: in a pause, between two frames, at their
end or before their beginning, and from any depth of repeated bodies. -/
theorem Engine.stop_freezes {e : Engine} (hidle : e.guard.held = false)
    (hpart : e.repertoire.IsPartOf .builtin) (p : Project) (clock : Nat)
    (hstarts : p.program.starts ≠ []) (before : List Turn) {r : Run}
    (hrun : ((e.start p clock).1.play before).engine.run? = some r)
    (hrest : ∀ c ∈ r.chains, c.isAtRest = true) (turns : List Turn) :
    ((e.start p clock).1.play before).engine.Frozen r turns := by
  have hbegun := performing_start hidle p clock hstarts
  have hunbroken : ∀ c ∈ (e.firstRun p clock).chains, c.ending? ≠ some .broken := by
    intro c hc
    obtain ⟨b, -, rfl⟩ := List.mem_map.mp hc
    exact nofun
  -- up to the stop, no chain has broken down
  obtain ⟨r₁, h₁, -, hunbroken⟩ :=
    hbegun.account (Run.account_unbroken hpart) before [] [] ⟨rfl, hunbroken⟩
  obtain rfl : r₁ = r := Option.some.inj (h₁.run_eq.symm.trans hrun)
  obtain ⟨hstopped, hoff⟩ := h₁.stop
  obtain ⟨r', h', hoff', hhalts, hsignals, hdeeds, hstage⟩ := hstopped.halts_play hoff hrest turns
  have hended : ∀ i c', .chain i ∈ turns → r₁.mayAct i = true → r'.chains[i]? = some c' →
      c'.ending?.isSome := fun i c' hi hmay hc' =>
    hstopped.ending?_halts_play hoff hrest hi hmay h'.run_eq hc'
  -- no chain ever failed, so a stop is the only way in which the run can end
  have hresult := Run.result?_of_calledOff (hhalts.unbroken hunbroken)
  rw [hhalts.operations_eq] at hresult
  refine ⟨hsignals, hdeeds, hstage.trans (by rw [h₁.stop_eq]), ⟨r', h'.run_eq, hhalts, hended⟩,
    ?conclude, ?ends⟩
  case conclude =>
    -- the end, if it has come, is that of a run that is stopped
    unfold conclude
    rw [h'.run_eq, h'.isCalledOff_eq, hoff']
    dsimp only
    rcases hresult with hnone | hsome
    · rw [hnone]
      exact Or.inl rfl
    · rw [hsome, ← hhalts.number_eq]
      exact Or.inr rfl
  case ends =>
    -- and it has come when every chain has had a turn
    intro hall
    rw [h'.conclude_eq.2.2, hoff']
    have hsome : (r'.result? true).isSome :=
      hhalts.result?_isSome fun i c' hi hmay hc' => hended i c' (hall i hi) hmay hc'
    refine hresult.resolve_left fun hnone => ?_
    rw [hnone] at hsome
    exact absurd hsome (by decide)

/-- An engine with a chain in a pause inside a repeated body, a chain between two frames, and a chain
that has not begun. -/
def Engine.sampleAtRest : Engine :=
  (((Engine.sample .concurrent).start .sample 0).1.play
    (List.replicate 7 (.chain 0) ++ List.replicate 5 (.chain 1))).engine

theorem Engine.sampleAtRest_freezes :
    ∃ r, Engine.sampleAtRest.run? = some r ∧ r.operations = 5 ∧
      Engine.sampleAtRest.Frozen r [.chain 0, .chain 1, .ask .sample 0, .chain 2] := by
  have hrun : Engine.sampleAtRest.run?.any
      (fun r => r.operations = 5 && r.chains.all Chain.isAtRest) = true := by decide +kernel
  obtain ⟨r, hr, hrest⟩ := (Option.any_eq_true _ _).mp hrun
  obtain ⟨hoperations, hrest⟩ := Bool.and_eq_true_iff.mp hrest
  exact ⟨r, hr, of_decide_eq_true hoperations, Engine.stop_freezes rfl (.refl _) .sample 0
    (by decide +kernel) _ hr (List.all_eq_true.mp hrest) _⟩

end StagePlay
