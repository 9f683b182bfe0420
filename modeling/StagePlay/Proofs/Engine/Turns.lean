import StagePlay.Engine.Basic
import StagePlay.Proofs.Chain.Step

/-!
# Turns of an engine

A run, from the outside: it is asked for, then things happen while it goes on, in any order, and at
last it comes to its end. `Turn` is one such thing: a step of any chain, a stop, or the asking for
another run, which comes too early. `Engine.play` takes some turns and records what they did, and
`Engine.perform` is a whole run, from the asking to the end.

What a record holds beyond the engine and its signals are the `Deed`s: the blocks that were carried
out, in order, each with the chain that did it and the owner that it was done for.

* `Engine.Performing` says that an engine is performing a run. Every turn keeps it
  (`Performing.turn`), so a run goes on until it is concluded.
* `Run.Account` is an invariant of the turns, said of the run and the stage alone.
  `Performing.account` carries one from the beginning of some turns to their end.
-/

namespace StagePlay

/-- **What can happen while a run goes on.** Turns come in any order, also such as no scheduler
would choose: a chain whose turn has not come yet does nothing, and so does one that has ended. -/
inductive Turn where
  /-- A chain of the run takes a step, if its turn has come. -/
  | chain (i : Nat)
  /-- The run is called off. -/
  | stop
  /-- Another run is asked for. -/
  | ask (p : Project) (clock : Nat)

/-- **A block that was carried out**, by a chain and for an owner. Deeds are not part of the engine:
they are what a proof keeps to say in which order blocks were carried out. -/
structure Deed where
  chain : Nat
  owner : Option String
  block : Block

/-- The block that the next step of a chain of a run carries out, if it carries out one. -/
def Run.deed? (r : Run) (cancelled : Bool) (i : Nat) : Option Deed :=
  match r.chains[i]? with
  | none => none
  | some c => if r.mayAct i then (c.entering? cancelled).map fun b => ⟨i, c.owner, b⟩ else none

/-- The stage after some signals is the one that they show last. -/
theorem Engine.stage_publish (signals : List Signal) (stage : PublicStage) :
    (Engine.publish stage signals).stage = lastShown stage.stage signals := by
  induction signals generalizing stage with
  | nil => rfl
  | cons signal signals ih =>
    cases signal with
    | frame s => exact ih (stage.publish s)
    | event e => exact ih stage
    | note n => exact ih stage

theorem Engine.publish_append (stage : PublicStage) (l l' : List Signal) :
    publish stage (l ++ l') = publish (publish stage l) l' := by
  induction l generalizing stage with
  | nil => rfl
  | cons signal l ih => cases signal <;> exact ih _

/-! ### Records -/

namespace Engine

/-- **One turn** of the engine's thread, and the signals that it sends. Only the step of a chain
sends any: a stop is noticed by the chains later, and whoever asks for a run beside this one is
turned away in silence. -/
def turn (e : Engine) : Turn → Engine × List Signal
  | .chain i => e.step i
  | .stop => (e.stop, [])
  | .ask p clock => ((e.start p clock).1, (e.start p clock).2.1)

/-- The block that a turn carries out, if it carries out one. -/
def deed? (e : Engine) : Turn → Option Deed
  | .chain i => e.run?.bind fun r => r.deed? e.isCalledOff i
  | .stop => none
  | .ask _ _ => none

@[simp] theorem turn_chain (e : Engine) (i : Nat) : e.turn (.chain i) = e.step i := rfl

@[simp] theorem turn_stop (e : Engine) : e.turn .stop = (e.stop, []) := rfl

@[simp] theorem turn_ask (e : Engine) (p : Project) (clock : Nat) :
    e.turn (.ask p clock) = ((e.start p clock).1, (e.start p clock).2.1) := rfl

/-- **What some turns did**: the engine after them, the signals that they sent, and the blocks that
they carried out. -/
structure Record where
  engine : Engine
  signals : List Signal
  deeds : List Deed

/-- **Some turns**, one after the other. The record holds what they sent and carried out, in order;
all statements about runs are statements about such a record. -/
def play (e : Engine) : List Turn → Record
  | [] => ⟨e, [], []⟩
  | t :: ts =>
    let rest := (e.turn t).1.play ts
    ⟨rest.engine, (e.turn t).2 ++ rest.signals, (e.deed? t).toList ++ rest.deeds⟩

theorem play_cons (e : Engine) (t : Turn) (ts : List Turn) :
    e.play (t :: ts) = ⟨((e.turn t).1.play ts).engine, (e.turn t).2 ++ ((e.turn t).1.play ts).signals,
      (e.deed? t).toList ++ ((e.turn t).1.play ts).deeds⟩ := rfl

theorem play_append (e : Engine) (ts us : List Turn) :
    e.play (ts ++ us) =
      ⟨((e.play ts).engine.play us).engine,
        (e.play ts).signals ++ ((e.play ts).engine.play us).signals,
        (e.play ts).deeds ++ ((e.play ts).engine.play us).deeds⟩ := by
  induction ts generalizing e with
  | nil => rfl
  | cons t ts ih =>
    simp only [List.cons_append, play_cons, ih, List.append_assoc]

/-- **A whole run**: the record of it, and its result if it came to an end. -/
structure Performance extends Record where
  result? : Option Result

/-- **Asking for a run, some turns, and the end of the run** if it has come by then. A run that is
ignored or has nothing to start is over with the asking, and the turns do not belong to it. -/
def perform (e : Engine) (p : Project) (clock : Nat) (turns : List Turn) : Performance :=
  match e.start p clock with
  | (begun, first, some report) => ⟨⟨begun, first, []⟩, some (.report report)⟩
  | (begun, first, none) =>
    let middle := begun.play turns
    let (ended, last, result?) := middle.engine.conclude
    ⟨⟨ended, first ++ middle.signals ++ last, middle.deeds⟩, result?⟩

end Engine

/-! ### The guard -/

theorem Guard.acquire?_eq_none {g : Guard} : g.acquire? = none ↔ g.held = true := by
  unfold acquire?
  cases g.held <;> simp

/-- **Whoever acquires the guard** found it free, and has a number that nobody had before. -/
theorem Guard.acquire?_eq_some {g g' : Guard} :
    g.acquire? = some g' ↔ g.held = false ∧ g' = ⟨true, g.number + 1, false⟩ := by
  unfold acquire?
  cases g.held <;> simp [eq_comm]

theorem Guard.acquire?_of_idle {g : Guard} (h : g.held = false) :
    g.acquire? = some ⟨true, g.number + 1, false⟩ :=
  Guard.acquire?_eq_some.mpr ⟨h, rfl⟩

namespace Engine

/-- **A run that is asked for while another one goes on** is ignored, and changes nothing. -/
theorem start_of_held {e : Engine} (hheld : e.guard.held = true) (p : Project) (clock : Nat) :
    e.start p clock = (e, [], some ⟨.ignored, 0⟩) := by
  unfold start
  rw [Guard.acquire?_eq_none.mpr hheld]

/-! ### Engines at work -/

/-- **An engine that is performing a run**, which holds the guard. The number of the run is that of
its token, so the token that is called off by a stop is its own. -/
structure Performing (e : Engine) (r : Run) : Prop where
  run_eq : e.run? = some r
  held : e.guard.held = true
  number_eq : e.guard.number = r.number

namespace Performing

variable {e : Engine} {r : Run}

theorem isCalledOff_eq (h : e.Performing r) : e.isCalledOff = e.guard.calledOff := by
  unfold isCalledOff Guard.isCalledOff
  rw [h.run_eq, h.number_eq]
  simp

theorem chain?_eq (h : e.Performing r) (i : Nat) : e.chain? i = r.chains[i]? := by
  unfold chain?
  rw [h.run_eq]
  rfl

/-- A run that is asked for meanwhile is ignored. -/
theorem start_eq (h : e.Performing r) (p : Project) (clock : Nat) :
    e.start p clock = (e, [], some ⟨.ignored, 0⟩) :=
  start_of_held h.held p clock

/-- A stop calls the run off, and the run goes on. -/
theorem stop_eq (h : e.Performing r) :
    e.stop = { e with guard := { e.guard with calledOff := true } } := by
  unfold stop Guard.stop Guard.callOff
  rw [if_pos h.held]

/-- The block that the next step of a chain of the run carries out. -/
theorem deed?_chain (h : e.Performing r) (i : Nat) :
    e.deed? (.chain i) = r.deed? e.guard.calledOff i := by
  change (e.run?.bind fun r => r.deed? e.isCalledOff i) = _
  rw [h.run_eq, h.isCalledOff_eq]
  rfl

theorem step_eq (h : e.Performing r) (i : Nat) :
    e.step i = ({ e with
        run? := some (r.step e.guard.calledOff e.stage.stage i).1
        stage := publish e.stage (r.step e.guard.calledOff e.stage.stage i).2.2 },
      (r.step e.guard.calledOff e.stage.stage i).2.2) := by
  unfold step
  rw [h.run_eq, h.isCalledOff_eq]

end Performing

/-- A run that begins: the stage is set, nothing is called off, and no chain has done anything. This
and the two lemmas on the other outcomes are all that is used of `Engine.start`. -/
theorem start_of_idle {e : Engine} (hidle : e.guard.held = false) (p : Project) (clock : Nat)
    (hstarts : p.program.starts ≠ []) :
    e.start p clock =
      ({ e with
          stage := e.stage.set p.actors p.backdrop
          guard := ⟨true, e.guard.number + 1, false⟩
          run? := some (.ofScore (e.guard.number + 1) ⟨p.program, e.repertoire, e.interval⟩
            e.scheduling (.set p.actors p.backdrop) clock) },
        [.frame (.set p.actors p.backdrop), .event (.runStarted (e.guard.number + 1))], none) := by
  unfold start
  rw [Guard.acquire?_of_idle hidle]
  cases hs : p.program.starts with
  | nil => exact absurd hs hstarts
  | cons b bs => rfl

/-- The run of an engine at its beginning. -/
def firstRun (e : Engine) (p : Project) (clock : Nat) : Run :=
  .ofScore (e.guard.number + 1) ⟨p.program, e.repertoire, e.interval⟩ e.scheduling
    (.set p.actors p.backdrop) clock

theorem performing_start {e : Engine} (hidle : e.guard.held = false) (p : Project) (clock : Nat)
    (hstarts : p.program.starts ≠ []) : (e.start p clock).1.Performing (e.firstRun p clock) := by
  rw [start_of_idle hidle p clock hstarts]
  exact ⟨rfl, rfl, rfl⟩

theorem stage_start {e : Engine} (hidle : e.guard.held = false) {p : Project}
    (hstarts : p.program.starts ≠ []) (clock : Nat) :
    (e.start p clock).1.stage.stage = .set p.actors p.backdrop := by
  rw [start_of_idle hidle p clock hstarts]
  rfl

theorem guard_start {e : Engine} (hidle : e.guard.held = false) {p : Project}
    (hstarts : p.program.starts ≠ []) (clock : Nat) :
    (e.start p clock).1.guard = ⟨true, e.guard.number + 1, false⟩ := by
  rw [start_of_idle hidle p clock hstarts]

/-- A program without a start block is over at once. The stage is set all the same, and the number
of the guard goes up. -/
theorem start_of_idle_of_nothing {e : Engine} (hidle : e.guard.held = false) (p : Project)
    (clock : Nat) (hstarts : p.program.starts = []) :
    e.start p clock =
      ({ e with
          stage := e.stage.set p.actors p.backdrop
          guard := ⟨false, e.guard.number + 1, false⟩ },
        [.frame (.set p.actors p.backdrop), .event .noStartBlock], some ⟨.noStartBlock, 0⟩) := by
  unfold start
  rw [Guard.acquire?_of_idle hidle, hstarts]
  rfl

end Engine

/-! ### Steps of a run -/

/-- A chain whatever its clock says. One after the other, the clock of a chain is set by the one
before it, so a step of a run may change the clock of a chain that did not act. -/
def Chain.unclocked (c : Chain) : Chain := { c with clock := 0 }

theorem Chain.ending?_of_unclocked_eq {c c' : Chain} (h : c'.unclocked = c.unclocked) :
    c'.ending? = c.ending? := by
  change c'.unclocked.ending? = c.unclocked.ending?
  rw [h]

/-- What stands at some place of a list stands between what comes before it and what comes after. -/
theorem exists_append_of_getElem? {α : Type} {l : List α} {i : Nat} {a : α} (h : l[i]? = some a) :
    ∃ l₁ l₂, l = l₁ ++ a :: l₂ ∧ i = l₁.length := by
  obtain ⟨hi, rfl⟩ := List.getElem?_eq_some_iff.mp h
  -- what comes before it, and what comes after it
  refine ⟨l.take i, l.drop (i + 1), ?_, ?_⟩
  · rw [← List.drop_eq_getElem_cons hi, List.take_append_drop]
  · rw [List.length_take, Nat.min_eq_left (Nat.le_of_lt hi)]

private theorem modify_append_cons {α : Type} (l : List α) (a : α) (f : α → α) (l' : List α) :
    (l ++ a :: l').modify l.length f = l ++ f a :: l' := by
  induction l with
  | nil => rfl
  | cons b l ih => exact congrArg (b :: ·) ih

namespace Run

/-- **A chain put back in its place**: one after the other, the chain behind it takes over its clock
when it is completed. -/
theorem put_append {r : Run} {cs cs' : List Chain} {c : Chain} (h : r.chains = cs ++ c :: cs')
    (c' : Chain) :
    r.put cs.length c' = cs ++ c' ::
      if r.scheduling = .sequential && c'.ending? = some .completed then
        cs'.modifyHead fun next => { next with clock := c'.clock }
      else cs' := by
  have hset : r.chains.set cs.length c' = cs ++ c' :: cs' := by
    rw [h, List.set_append_right _ _ (Nat.le_refl _), Nat.sub_self, List.set_cons_zero]
  unfold put
  simp only [hset]
  -- the chain behind takes over the clock, or no other chain is touched
  split
  · -- the chain behind it is the next in the list, if there is one
    cases cs' with
    | nil => exact List.modify_eq_self (by simp)
    | cons d ds =>
      have hmodify := modify_append_cons (cs ++ [c']) d (fun d => { d with clock := c'.clock }) ds
      rwa [List.length_append, List.append_assoc, List.append_assoc] at hmodify
  · rfl

/-- The chains behind it are as they were, but for the clock of the first one. -/
theorem put_eq {r : Run} {cs cs' : List Chain} {c : Chain} (h : r.chains = cs ++ c :: cs')
    (c' : Chain) :
    ∃ cs'', r.put cs.length c' = cs ++ c' :: cs'' ∧
      cs''.map Chain.unclocked = cs'.map Chain.unclocked := by
  refine ⟨_, put_append h c', ?_⟩
  split
  · cases cs' with
    | nil => rfl
    | cons d ds => rfl
  · rfl

/-- All at once, it can be anyone's turn. -/
theorem mayAct_of_concurrent {r : Run} (hscheduling : r.scheduling = .concurrent) (i : Nat) :
    r.mayAct i = true := by
  unfold mayAct
  rw [hscheduling]

/-- One after the other, it is the turn of a chain when those before it are completed. A chain that
ended in another way keeps those behind it from acting. -/
theorem mayAct_of_sequential {r : Run} (hscheduling : r.scheduling = .sequential) {i : Nat} :
    r.mayAct i = true ↔
      ∀ j c, j < i → r.chains[j]? = some c → c.ending? = some .completed := by
  unfold mayAct
  rw [hscheduling, List.all_eq_true]
  constructor
  · intro h j c hj hc
    exact of_decide_eq_true (h c (List.mem_iff_getElem?.mpr
      ⟨j, by rw [List.getElem?_take_of_lt hj, hc]⟩))
  · intro h c hc
    obtain ⟨j, hj⟩ := List.mem_iff_getElem?.mp hc
    have hlt : j < i := by
      by_cases hlt : j < i
      · exact hlt
      · rw [List.getElem?_take_eq_none (Nat.not_lt.mp hlt)] at hj
        exact absurd hj (by simp)
    rw [List.getElem?_take_of_lt hlt] at hj
    exact decide_eq_true (h j c hlt hj)

/-- **The steps of a run**: nothing, or a step of a chain whose turn has come. Each is given with
the deed that goes with it. The acting chain stands between `cs` and `cs'`, and those behind it may
get another clock (`cs''`). -/
theorem step_cases (r : Run) (off : Bool) (s : Stage) (i : Nat)
    {motive : Run × Stage × List Signal → Option Deed → Prop}
    -- there is no such chain, or its turn has not come
    (idle : (r.chains[i]?.isSome → r.mayAct i = false) → motive (r, s, []) none)
    -- the chain takes its step, on the stage as it is and with the counter of the run
    (acting : ∀ cs c cs' cs'', r.chains = cs ++ c :: cs' → i = cs.length → r.mayAct i = true →
      cs''.map Chain.unclocked = cs'.map Chain.unclocked →
      motive
        ({ r with
            operations := (c.step r.score ⟨s, r.operations, off⟩).2.1.operations
            chains := cs ++ (c.step r.score ⟨s, r.operations, off⟩).1 :: cs'' },
          (c.step r.score ⟨s, r.operations, off⟩).2.1.stage,
          (c.step r.score ⟨s, r.operations, off⟩).2.2)
        ((c.entering? off).map fun b => ⟨cs.length, c.owner, b⟩)) :
    motive (r.step off s i) (r.deed? off i) := by
  unfold step deed?
  cases hc : r.chains[i]? with
  | none => exact idle fun hsome => absurd hsome (by rw [hc]; decide)
  | some c =>
    cases hmay : r.mayAct i with
    | false => exact idle fun _ => hmay
    | true =>
      obtain ⟨cs, cs', hchains, rfl⟩ := exists_append_of_getElem? hc
      obtain ⟨cs'', hput, hsame⟩ := put_eq hchains (c.step r.score ⟨s, r.operations, off⟩).1
      have h := acting cs c cs' cs'' hchains rfl hmay hsame
      rw [← hput] at h
      exact h

/-- **A chain after a step of its run**: it has taken the step if it was its own, and otherwise it
is where it was, whatever its clock says. The lemma is about all places at once, also those where no
chain is. -/
theorem getElem?_step (r : Run) (off : Bool) (s : Stage) (i j : Nat) :
    ((r.step off s i).1.chains[j]?).map Chain.unclocked =
      r.chains[j]?.map fun c => if i = j ∧ r.mayAct i = true then
        (c.step r.score ⟨s, r.operations, off⟩).1.unclocked else c.unclocked := by
  refine r.step_cases off s i
    (motive := fun after _ => (after.1.chains[j]?).map Chain.unclocked = _) ?idle ?acting
  case idle =>
    intro hidle
    cases hc : r.chains[j]? with
    | none => rfl
    | some c =>
      rw [Option.map_some, Option.map_some, if_neg]
      rintro ⟨rfl, hmay⟩
      exact absurd (hidle (by rw [hc]; rfl)) (by rw [hmay]; decide)
  case acting =>
    rintro cs c cs' cs'' hchains rfl hmay hclocks
    rw [hchains, ← List.getElem?_map, List.map_append, List.map_cons, hclocks]
    -- the acting chain itself, or another one
    by_cases hij : cs.length = j
    · subst hij
      rw [List.getElem?_append_right (by simp), List.getElem?_append_right (Nat.le_refl _),
        List.length_map, Nat.sub_self]
      simp only [List.getElem?_cons_zero, Option.map_some, hmay, true_and, if_true]
    · -- clocks aside, one chain is exchanged and the others stay
      have hset : cs.map Chain.unclocked ++ (c.step r.score ⟨s, r.operations, off⟩).1.unclocked ::
          cs'.map Chain.unclocked = ((cs ++ c :: cs').map Chain.unclocked).set
            cs.length (c.step r.score ⟨s, r.operations, off⟩).1.unclocked := by
        rw [List.map_append, List.set_append_right _ _ (by simp), List.length_map, Nat.sub_self]
        rfl
      simp only [hset, hij, false_and, if_false]
      rw [List.getElem?_set_ne hij, List.getElem?_map]

theorem chain_after_step {r : Run} {j : Nat} {c : Chain} (hc : r.chains[j]? = some c) (off : Bool)
    (s : Stage) (i : Nat) :
    ∃ c', (r.step off s i).1.chains[j]? = some c' ∧ c'.unclocked =
      if i = j ∧ r.mayAct i = true then (c.step r.score ⟨s, r.operations, off⟩).1.unclocked
        else c.unclocked := by
  have hstep := r.getElem?_step off s i j
  rw [hc, Option.map_some] at hstep
  exact Option.map_eq_some_iff.mp hstep

theorem chain_before_step {r : Run} {off : Bool} {s : Stage} {i j : Nat} {c' : Chain}
    (hc' : (r.step off s i).1.chains[j]? = some c') :
    ∃ c, r.chains[j]? = some c ∧ c'.unclocked =
      if i = j ∧ r.mayAct i = true then (c.step r.score ⟨s, r.operations, off⟩).1.unclocked
        else c.unclocked := by
  have hstep := r.getElem?_step off s i j
  rw [hc', Option.map_some] at hstep
  obtain ⟨c, hc, heq⟩ := Option.map_eq_some_iff.mp hstep.symm
  exact ⟨c, hc, heq.symm⟩

/-- A chain whose turn it is not is where it was, whatever its clock says. -/
theorem chain_after_step_of_ne {r : Run} {i j : Nat} {c : Chain} (hc : r.chains[j]? = some c)
    (hij : i ≠ j) (off : Bool) (s : Stage) :
    ∃ c', (r.step off s i).1.chains[j]? = some c' ∧ c'.unclocked = c.unclocked := by
  obtain ⟨c', hc', heq⟩ := chain_after_step hc off s i
  rw [if_neg fun hturn => hij hturn.1] at heq
  exact ⟨c', hc', heq⟩

theorem chain_before_step_of_ne {r : Run} {off : Bool} {s : Stage} {i j : Nat} {c' : Chain}
    (hc' : (r.step off s i).1.chains[j]? = some c') (hij : i ≠ j) :
    ∃ c, r.chains[j]? = some c ∧ c'.unclocked = c.unclocked := by
  obtain ⟨c, hc, heq⟩ := chain_before_step hc'
  rw [if_neg fun hturn => hij hturn.1] at heq
  exact ⟨c, hc, heq⟩

/-- What is not about a clock holds of chains that differ in their clocks alone. -/
theorem forall_of_unclocked_eq {P : Chain → Prop}
    (hclock : ∀ {c c' : Chain}, c'.unclocked = c.unclocked → P c → P c') {cs cs' : List Chain}
    (heq : cs'.map Chain.unclocked = cs.map Chain.unclocked) (h : ∀ c ∈ cs, P c) :
    ∀ c ∈ cs', P c := by
  intro c' hc'
  have hmem : c'.unclocked ∈ cs.map Chain.unclocked := heq ▸ List.mem_map_of_mem hc'
  obtain ⟨c, hc, hsame⟩ := List.mem_map.mp hmem
  exact hclock hsame.symm (h c hc)

/-- A deed is the next block of the chain whose turn it is. -/
theorem of_mem_deed? {r : Run} {off : Bool} {i : Nat} {d : Deed} (hd : d ∈ r.deed? off i) :
    ∃ c, r.chains[i]? = some c ∧ ∃ b, c.entering? off = some b ∧ d = ⟨i, c.owner, b⟩ := by
  unfold deed? at hd
  split at hd
  · exact nomatch hd
  · next c hc =>
    split at hd
    · obtain ⟨b, hb, rfl⟩ := Option.map_eq_some_iff.mp hd
      exact ⟨c, hc, b, hb, rfl⟩
    · exact nomatch hd

/-- **What each chain keeps by its own steps, all chains keep by a step of the run**, as long as it
is not about a clock. This is how an invariant of chains becomes one of runs. -/
theorem forall_chains_step {r : Run} {off : Bool} {s : Stage} {P : Chain → Prop}
    (hclock : ∀ {c c' : Chain}, c'.unclocked = c.unclocked → P c → P c')
    (hstep : ∀ c, P c → P (c.step r.score ⟨s, r.operations, off⟩).1)
    (h : ∀ c ∈ r.chains, P c) (i : Nat) : ∀ c ∈ (r.step off s i).1.chains, P c := by
  intro c' hmem
  obtain ⟨j, hc'⟩ := List.mem_iff_getElem?.mp hmem
  obtain ⟨c, hc, heq⟩ := chain_before_step hc'
  have hbefore : P c := h c (List.mem_of_getElem? hc)
  split at heq
  · exact hclock heq (hstep c hbefore)
  · exact hclock heq hbefore

/-- **A run of the language that is not called off** has no chains but completed ones among those that
have ended. -/
theorem completed_step {r : Run} (hpart : r.score.repertoire.IsPartOf .builtin) (s : Stage)
    (h : ∀ c ∈ r.chains, ∀ how, c.ending? = some how → how = .completed) (i : Nat) :
    ∀ c ∈ (r.step false s i).1.chains, ∀ how, c.ending? = some how → how = .completed := by
  refine forall_chains_step ?clock ?step h i
  case clock =>
    intro c c' heq hbefore how hhow
    rw [Chain.ending?_of_unclocked_eq heq] at hhow
    exact hbefore how hhow
  case step => exact fun c hbefore _ hhow => c.step_completed hpart rfl hbefore hhow

/-- **A step of a chain whose turn it can be** is the chain's own step: the stage after it is the
chain's, and the deed, if there is one, is the block the chain is entering, in the name of the
chain's owner. -/
theorem step_of_mayAct {r : Run} {i : Nat} {c : Chain} (hc : r.chains[i]? = some c)
    (hmay : r.mayAct i = true) (off : Bool) (s : Stage) :
    (r.step off s i).2.1 = (c.step r.score ⟨s, r.operations, off⟩).2.1.stage ∧
      r.deed? off i = (c.entering? off).map fun b => ⟨i, c.owner, b⟩ := by
  unfold step deed?
  rw [hc]
  simp only [hmay, if_true, and_self]

/-- The chains after a step of one of them whose turn has come: the one that acted is put back in
its place as its own step leaves it, and the others are as they were. -/
theorem chains_step_of_mayAct {r : Run} {i : Nat} {c : Chain} (hc : r.chains[i]? = some c)
    (hmay : r.mayAct i = true) (off : Bool) (s : Stage) :
    (r.step off s i).1.chains = r.put i (c.step r.score ⟨s, r.operations, off⟩).1 := by
  unfold step
  rw [hc]
  simp only [hmay, if_true]

/-- A step that does nothing, because there is no such chain or it has to wait for those before it.
Run, stage and signals are untouched, and there is no deed to count. -/
theorem step_of_not_mayAct {r : Run} {i : Nat} (h : r.chains[i]?.isSome → r.mayAct i = false)
    (off : Bool) (s : Stage) : r.step off s i = (r, s, []) ∧ r.deed? off i = none := by
  unfold step deed?
  cases hc : r.chains[i]? with
  | none => exact ⟨rfl, rfl⟩
  | some c =>
    have hwait : r.mayAct i = false := h (by rw [hc]; rfl)
    simp only [hwait, Bool.false_eq_true, if_false, and_self]

/-- What the signals of a step show last is the stage after it. A step that shows nothing has not
changed the stage either, so an observer of the frames is never behind. -/
theorem step_lastShown (r : Run) (off : Bool) (s : Stage) (i : Nat) :
    lastShown s (r.step off s i).2.2 = (r.step off s i).2.1 :=
  r.step_cases off s i (motive := fun after _ => lastShown s after.2.2 = after.2.1) (fun _ => rfl)
    fun _ c _ _ _ _ _ _ => @Chain.step_lastShown r.score ⟨s, r.operations, off⟩ c

@[simp] theorem number_step (r : Run) (off : Bool) (s : Stage) (i : Nat) :
    (r.step off s i).1.number = r.number :=
  r.step_cases off s i (motive := fun after _ => after.1.number = r.number)
    (fun _ => rfl) fun _ _ _ _ _ _ _ _ => rfl

@[simp] theorem score_step (r : Run) (off : Bool) (s : Stage) (i : Nat) :
    (r.step off s i).1.score = r.score :=
  r.step_cases off s i (motive := fun after _ => after.1.score = r.score)
    (fun _ => rfl) fun _ _ _ _ _ _ _ _ => rfl

@[simp] theorem scheduling_step (r : Run) (off : Bool) (s : Stage) (i : Nat) :
    (r.step off s i).1.scheduling = r.scheduling :=
  r.step_cases off s i (motive := fun after _ => after.1.scheduling = r.scheduling)
    (fun _ => rfl) fun _ _ _ _ _ _ _ _ => rfl

/-! ### Accounts -/

/-- **An account of a run that goes on**, which every turn keeps. It speaks of the run, the stage
and whether the run is called off, and of the signals and the deeds so far. Whatever is to be shown
of whole runs is put as an account; the two fields are then all there is to prove, and
`Engine.account_perform` does the induction. -/
structure Account (I : Run → Stage → Bool → List Signal → List Deed → Prop) : Prop where
  /-- A step of a chain keeps the account, with the signals of the step and its deed added to those
  before. -/
  chain : ∀ {r s off signals deeds} (i : Nat), I r s off signals deeds →
    I (r.step off s i).1 (r.step off s i).2.1 off (signals ++ (r.step off s i).2.2)
      (deeds ++ (r.deed? off i).toList)
  /-- A stop keeps the account: it shows nothing and does nothing, but from then on the run is
  called off. -/
  stop : ∀ {r s off signals deeds}, I r s off signals deeds → I r s true signals deeds

/-- Two accounts of the same turns are one. So a later account can lean on an earlier one at every
step without the steps being gone through again. -/
theorem Account.and {I J : Run → Stage → Bool → List Signal → List Deed → Prop} (hI : Account I)
    (hJ : Account J) :
    Account fun r s off signals deeds => I r s off signals deeds ∧ J r s off signals deeds where
  chain i h := ⟨hI.chain i h.1, hJ.chain i h.2⟩
  stop h := ⟨hI.stop h.1, hJ.stop h.2⟩

end Run

namespace Engine.Performing

variable {I : Run → Stage → Bool → List Signal → List Deed → Prop}

/-- **A step of a chain** of the run, seen from the engine: the engine goes on with the run after
the step, its guard is untouched, and its public stage is the run's. This is where the engine's
turns are taken back to `Run.step`, which knows nothing of guards and observers. -/
theorem step {e : Engine} {r : Run} (h : e.Performing r) (i : Nat) :
    (e.step i).1.Performing (r.step e.guard.calledOff e.stage.stage i).1 ∧
      (e.step i).1.guard = e.guard ∧
      (e.step i).1.stage.stage = (r.step e.guard.calledOff e.stage.stage i).2.1 := by
  rw [h.step_eq, stage_publish, Run.step_lastShown]
  exact ⟨⟨rfl, h.held, h.number_eq.trans (r.number_step _ _ i).symm⟩, rfl, rfl⟩

/-- **A turn keeps an engine at its run**, and every account of that run. The run may be another
afterwards, since its chains have moved on, but it is the one the engine holds. -/
theorem turn (hI : Run.Account I) {e : Engine} {r : Run} (h : e.Performing r) (t : Turn)
    (signals : List Signal) (deeds : List Deed)
    (hbefore : I r e.stage.stage e.guard.calledOff signals deeds) :
    ∃ r', (e.turn t).1.Performing r' ∧
      I r' (e.turn t).1.stage.stage (e.turn t).1.guard.calledOff (signals ++ (e.turn t).2)
        (deeds ++ (e.deed? t).toList) := by
  cases t with
  | chain i =>
    -- the only turn by which the run itself moves; the account's own clause does the work
    obtain ⟨hperforming, hguard, hstage⟩ := h.step i
    refine ⟨_, hperforming, ?_⟩
    have hafter := hI.chain i hbefore
    rw [turn_chain, h.deed?_chain, hguard, hstage, h.step_eq]
    exact hafter
  | stop =>
    refine ⟨r, ?_, ?_⟩
    -- the guard is called off and nothing else: the run and the stage are those from before
    · rw [turn_stop, h.stop_eq]
      exact ⟨h.run_eq, h.held, h.number_eq⟩
    · rw [turn_stop, h.stop_eq, List.append_nil]
      simpa only [deed?, Option.toList_none, List.append_nil] using hI.stop hbefore
  | ask p clock =>
    refine ⟨r, ?_, ?_⟩
    -- a run is going on, so whoever asks is turned away and leaves no trace
    · rw [turn_ask, h.start_eq]
      exact h
    · rw [turn_ask, h.start_eq, List.append_nil]
      simpa only [deed?, Option.toList_none, List.append_nil] using hbefore

/-- **An account is kept through any turns**, by induction on them. The account has to be general in
what was told and done before, since each turn adds to it at the end. -/
theorem account (hI : Run.Account I) {e : Engine} {r : Run} (h : e.Performing r) (ts : List Turn)
    (signals : List Signal) (deeds : List Deed)
    (hbefore : I r e.stage.stage e.guard.calledOff signals deeds) :
    ∃ r', (e.play ts).engine.Performing r' ∧
      I r' (e.play ts).engine.stage.stage (e.play ts).engine.guard.calledOff
        (signals ++ (e.play ts).signals) (deeds ++ (e.play ts).deeds) := by
  induction ts generalizing e r signals deeds with
  | nil => exact ⟨r, h, by simpa only [play, List.append_nil] using hbefore⟩
  | cons t ts ih =>
    obtain ⟨r₁, h₁, hI₁⟩ := h.turn hI t signals deeds hbefore
    obtain ⟨r₂, h₂, hI₂⟩ := ih h₁ _ _ hI₁
    -- what the first turn told comes before what the rest tell, however it is bracketed
    rw [List.append_assoc, List.append_assoc] at hI₂
    exact ⟨r₂, h₂, hI₂⟩

/-- A turn keeps an engine at its run. This is `turn` for the account that says nothing, and is what
the inductions below use when they follow something other than an account. -/
theorem next {e : Engine} {r : Run} (h : e.Performing r) (t : Turn) :
    ∃ r', (e.turn t).1.Performing r' := by
  have hnothing : Run.Account fun _ _ _ _ _ => True := ⟨fun _ _ => trivial, fun _ => trivial⟩
  obtain ⟨r', h', -⟩ := h.turn hnothing t [] [] trivial
  exact ⟨r', h'⟩

/-- No turns take an engine from its run; that is for the end of the run to do. Even a stop only
marks the run as called off, and the chains go on until they notice. -/
theorem exists_play {e : Engine} {r : Run} (h : e.Performing r) (ts : List Turn) :
    ∃ r', (e.play ts).engine.Performing r' := by
  induction ts generalizing e r with
  | nil => exact ⟨r, h⟩
  | cons t ts ih =>
    obtain ⟨r', h'⟩ := h.next t
    exact ih h'

end Engine.Performing

/-- A run changes the public stage by what it shows, and in no other way. So the stage can be read
off the signals alone, which is what the observers do. -/
theorem Engine.Performing.stage_play {e : Engine} {r : Run} (h : e.Performing r) (ts : List Turn) :
    (e.play ts).engine.stage = publish e.stage (e.play ts).signals := by
  induction ts generalizing e r with
  | nil => rfl
  | cons t ts ih =>
    obtain ⟨r', h'⟩ := h.next t
    -- one turn at a time: only a chain's step shows anything, and it publishes exactly that
    have hstage : (e.turn t).1.stage = publish e.stage (e.turn t).2 := by
      cases t with
      | chain i => rw [turn_chain, h.step_eq]
      | stop => rw [turn_stop, h.stop_eq]; rfl
      | ask p clock => rw [turn_ask, h.start_eq]; rfl
    rw [play_cons, ih h', hstage, ← publish_append]

/-! ### Whole runs -/

theorem Run.report_eq_completed {r : Run} {whole : Bool} {n : Nat} :
    some (r.report whole) = some (.report ⟨.completed, n⟩) ↔ whole = true ∧ n = r.operations := by
  unfold report
  cases whole <;> simp [eq_comm]

/-- **A run is completed** where nothing was called off and all its chains are, whatever the order
of their turns was. A sequential run looks for the first chain that is not completed and a
concurrent one asks whether all have ended; for this outcome the two ways of asking come to the
same. -/
theorem Run.result?_eq_completed {r : Run} {off : Bool} {n : Nat} :
    r.result? off = some (.report ⟨.completed, n⟩) ↔
      off = false ∧ n = r.operations ∧ ∀ c ∈ r.chains, c.ending? = some .completed := by
  unfold result?
  cases r.scheduling with
  | sequential =>
    dsimp only
    cases hfind : r.chains.find? fun c => c.ending? ≠ some .completed with
    | none =>
      -- no chain is left that is not completed, and the run reports on itself
      have hall : ∀ c ∈ r.chains, c.ending? = some .completed := by
        simpa using List.find?_eq_none.mp hfind
      dsimp only
      rw [report_eq_completed, Bool.not_eq_true']
      exact ⟨fun h => ⟨h.1, h.2, hall⟩, fun h => ⟨h.1, h.2.1⟩⟩
    | some c =>
      -- a chain that is not completed speaks against both sides
      have hnot : ¬∀ c ∈ r.chains, c.ending? = some .completed := fun hall =>
        absurd (hall c (List.mem_of_find?_eq_some hfind)) (by simpa using List.find?_some hfind)
      refine ⟨fun h => ?_, fun h => absurd h.2.2 hnot⟩
      dsimp only at h
      -- such a chain has not ended, or has broken down, or was cancelled: in none of these cases is
      -- the run completed
      split at h
      · exact absurd h (by simp)
      · exact absurd h (by simp)
      · exact absurd (report_eq_completed.mp h).1 (by simp)
  | concurrent =>
    dsimp only
    split
    -- all have ended, and the report asks once more whether each of them is completed
    · rw [report_eq_completed, Bool.and_eq_true, Bool.not_eq_true', List.all_eq_true]
      simp only [decide_eq_true_eq]
      exact ⟨fun h => ⟨h.1.1, h.2, h.1.2⟩, fun h => ⟨⟨h.1, h.2.2⟩, h.2.1⟩⟩
    · next hnot =>
      -- one has not ended, so there is no result yet; were all of them completed, all would have
      -- ended
      refine ⟨fun h => absurd h (by simp), fun h => absurd ?_ hnot⟩
      refine List.all_eq_true.mpr fun c hc => ?_
      rw [h.2.2 c hc]
      rfl

/-- **A run whose chains end by being completed** ends when all of them are, and is completed
itself, if it is not called off. The hypothesis rules out the other endings; what remains to show is
that no chain is still under way when the run has a result. -/
theorem Run.result?_of_completed {r : Run}
    (hcompleted : ∀ c ∈ r.chains, ∀ how, c.ending? = some how → how = .completed) {result : Result}
    (hresult : r.result? false = some result) :
    result = .report ⟨.completed, r.operations⟩ ∧ ∀ c ∈ r.chains, c.ending? = some .completed := by
  have hall : ∀ c ∈ r.chains, c.ending? = some .completed := by
    unfold result? at hresult
    split at hresult
    · split at hresult
      · next hfind => simpa using List.find?_eq_none.mp hfind
      · next c hfind =>
        -- the first chain that is not completed has not ended, so the run has not
        have hnot : c.ending? ≠ some .completed := by simpa using List.find?_some hfind
        cases hending : c.ending? with
        | none =>
          rw [hending] at hresult
          exact absurd hresult (by simp)
        | some how =>
          obtain rfl := hcompleted c (List.mem_of_find?_eq_some hfind) how hending
          exact absurd hending hnot
    · split at hresult
      -- side by side: every chain has ended, and there is only one way left for it to end
      · next hended =>
        intro c hmem
        obtain ⟨how, hhow⟩ := Option.isSome_iff_exists.mp (List.all_eq_true.mp hended c hmem)
        rw [hhow, hcompleted c hmem how hhow]
      · exact absurd hresult (by simp)
  exact ⟨Option.some.inj (hresult.symm.trans (result?_eq_completed.mpr ⟨rfl, rfl, hall⟩)), hall⟩

namespace Engine

/-- **The end of a run**: it has not come, or the run broke down, or it is over and that is told.
The three cases are all `conclude` can do, with what it looked at in each; the facts below are read
off them and do not open `conclude` again. -/
theorem conclude_cases (e : Engine) {motive : Engine × List Signal × Option Result → Prop}
    (goesOn : motive (e, [], none))
    (broken : ∀ r, e.run? = some r → r.result? e.isCalledOff = some .broken →
      motive (e.abandon, [], some .broken))
    (reported : ∀ r report, e.run? = some r → r.result? e.isCalledOff = some (.report report) →
      motive (e.abandon, [.event (.runFinished r.number report.outcome)], some (.report report))) :
    motive e.conclude := by
  unfold conclude
  cases hrun : e.run? with
  | none => exact goesOn
  | some r =>
    dsimp only
    cases hresult : r.result? e.isCalledOff with
    | none => exact goesOn
    | some result =>
      cases result with
      | broken => exact broken r hrun hresult
      | report report => exact reported r report hrun hresult

/-- A run that has not come to its end goes on: asking for a result which is not there yet leaves
the engine, its guard and its observers as they were. -/
theorem conclude_of_none (e : Engine) (h : e.conclude.2.2 = none) : e.conclude = (e, [], none) := by
  revert h
  refine e.conclude_cases (motive := fun finale => finale.2.2 = none → finale = (e, [], none))
    (fun _ => rfl) ?broken ?reported
  case broken => exact fun _ _ _ h => nomatch h
  case reported => exact fun _ _ _ _ h => nomatch h

/-- What is told of a run that has come to its end: that it finished and how, or nothing at all if
it broke down, since a panic unwinds past the announcement. -/
def closing (r : Run) : Result → List Signal
  | .report report => [.event (.runFinished r.number report.outcome)]
  | .broken => []

/-- **A run that has come to its end** is told of and dropped. The engine afterwards is the one that
abandoned the run, in both cases: the guard is let go of even when the run broke down. -/
theorem conclude_of_some (e : Engine) {result : Result} (h : e.conclude.2.2 = some result) :
    ∃ r, e.run? = some r ∧ r.result? e.isCalledOff = some result ∧
      e.conclude = (e.abandon, closing r result, some result) := by
  revert h
  refine e.conclude_cases (motive := fun finale => finale.2.2 = some result → ∃ r, e.run? = some r ∧
    r.result? e.isCalledOff = some result ∧ finale = (e.abandon, closing r result, some result))
    ?goesOn ?broken ?reported
  -- the run has no result, which the hypothesis denies
  case goesOn => exact fun h => nomatch h
  case broken =>
    intro r hrun hresult h
    obtain rfl := Option.some.inj h
    exact ⟨r, hrun, hresult, rfl⟩
  case reported =>
    intro r report hrun hresult h
    obtain rfl := Option.some.inj h
    exact ⟨r, hrun, hresult, rfl⟩

/-- What the end of a run does, as far as the stage and the words about unknown blocks go: nothing.
Its result is the run's own, whether or not that is there yet. -/
theorem Performing.conclude_eq {e : Engine} {r : Run} (h : e.Performing r) :
    e.conclude.1.stage = e.stage ∧ unknowns e.conclude.2.1 = [] ∧
      e.conclude.2.2 = r.result? e.guard.calledOff := by
  unfold conclude
  rw [h.run_eq, h.isCalledOff_eq]
  dsimp only
  cases r.result? e.guard.calledOff with
  | none => exact ⟨rfl, rfl, rfl⟩
  | some result => cases result <;> exact ⟨rfl, rfl, rfl⟩

/-- Only a stop calls a run off. Turns without one leave that mark as it was, however many chains
acted and whoever asked for another run in between. -/
theorem Performing.calledOff_play {e : Engine} {r : Run} (h : e.Performing r) {ts : List Turn}
    (hts : .stop ∉ ts) : (e.play ts).engine.guard.calledOff = e.guard.calledOff := by
  induction ts generalizing e r with
  | nil => rfl
  | cons t ts ih =>
    obtain ⟨r', h'⟩ := h.next t
    refine (ih h' fun hmem => hts (List.mem_cons_of_mem t hmem)).trans ?_
    cases t with
    | chain i => rw [turn_chain, h.step_eq]
    | stop => exact absurd List.mem_cons_self hts
    | ask p clock => rw [turn_ask, h.start_eq]

/-- A run that is called off stays so. Once a stop is among the turns the mark is set at their end,
wherever in them the stop stood. -/
theorem Performing.calledOff_of_stop {e : Engine} {r : Run} (h : e.Performing r) {ts : List Turn}
    (hts : .stop ∈ ts) : (e.play ts).engine.guard.calledOff = true := by
  have hcalled : Run.Account fun _ _ off _ _ => off = true := ⟨fun _ h => h, fun _ => rfl⟩
  obtain ⟨before, after, rfl⟩ := List.append_of_mem hts
  -- the run goes on until the stop, and what the stop did is kept through the turns behind it
  obtain ⟨r₁, h₁⟩ := h.exists_play before
  obtain ⟨r₂, h₂⟩ := h₁.next .stop
  obtain ⟨-, -, hoff⟩ := h₂.account hcalled after [] [] (by rw [turn_stop, h₁.stop_eq])
  rw [play_append]
  exact hoff

/-- **A run that ends completed** was not called off in any of its turns. The mark of a stop is
never taken back while the run lasts, and a run that carries it reports that it was stopped. -/
theorem Performing.stop_not_mem {e : Engine} {r : Run} (h : e.Performing r) {ts : List Turn} {n : Nat}
    (hcompleted : (e.play ts).engine.conclude.2.2 = some (.report ⟨.completed, n⟩)) : .stop ∉ ts := by
  intro hmem
  obtain ⟨r', h'⟩ := h.exists_play ts
  rw [h'.conclude_eq.2.2, Run.result?_eq_completed, h.calledOff_of_stop hmem] at hcompleted
  exact nomatch hcompleted.1

/-- A program without a start block is over at once, and only sets the stage. It is reported as such
with a count of nothing, and no turn that might follow has a run to work on. -/
theorem perform_of_nothing {e : Engine} (hidle : e.guard.held = false) (p : Project) (clock : Nat)
    (hstarts : p.program.starts = []) (turns : List Turn) :
    (e.perform p clock turns).result? = some (.report ⟨.noStartBlock, 0⟩) ∧
      (e.perform p clock turns).engine.stage.stage = .set p.actors p.backdrop ∧
      unknowns (e.perform p clock turns).signals = [] := by
  unfold perform
  rw [start_of_idle_of_nothing hidle p clock hstarts]
  exact ⟨rfl, rfl, rfl⟩

/-- A run that begins goes through its turns, and then to its end. What it tells is what the
beginning tells, what the turns tell and what the end tells, in this order. -/
theorem perform_of_idle {e : Engine} (hidle : e.guard.held = false) {p : Project}
    (hstarts : p.program.starts ≠ []) (clock : Nat) (turns : List Turn) :
    e.perform p clock turns =
      ⟨⟨((e.start p clock).1.play turns).engine.conclude.1,
        (e.start p clock).2.1 ++ ((e.start p clock).1.play turns).signals
          ++ ((e.start p clock).1.play turns).engine.conclude.2.1,
        ((e.start p clock).1.play turns).deeds⟩,
        ((e.start p clock).1.play turns).engine.conclude.2.2⟩ := by
  have hbegins : (e.start p clock).2.2 = none := by rw [start_of_idle hidle p clock hstarts]
  unfold perform
  generalize e.start p clock = begun at hbegins ⊢
  obtain ⟨begun, first, report?⟩ := begun
  obtain rfl : report? = none := hbegins
  rfl

/-- **What a whole run keeps.** An account that holds when the chains are in place holds when the
run comes to its end. The end itself adds no frame and no word about a block, and whether the run is
called off is known to depend on a stop among the turns. -/
theorem account_perform {I : Run → Stage → Bool → List Signal → List Deed → Prop}
    (hI : Run.Account I) {e : Engine} (hidle : e.guard.held = false) {p : Project} {clock : Nat}
    (hstarts : p.program.starts ≠ [])
    (hbegin : I (e.firstRun p clock) (.set p.actors p.backdrop) false
      [.frame (.set p.actors p.backdrop), .event (.runStarted (e.guard.number + 1))] [])
    (turns : List Turn) :
    ∃ r off signals,
      I r (e.perform p clock turns).engine.stage.stage off signals (e.perform p clock turns).deeds ∧
      unknowns (e.perform p clock turns).signals = unknowns signals ∧
      (e.perform p clock turns).result? = r.result? off ∧ (.stop ∉ turns → off = false) := by
  have hstart := start_of_idle hidle p clock hstarts
  have hperforming := performing_start hidle p clock hstarts
  -- the engine that has just begun is at the run's first state, with the two signals of the
  -- beginning
  have hfirst : I (e.firstRun p clock) (e.start p clock).1.stage.stage
      (e.start p clock).1.guard.calledOff (e.start p clock).2.1 [] := by
    rw [hstart]
    exact hbegin
  obtain ⟨r, hmiddle, hr⟩ := hperforming.account hI turns _ _ hfirst
  obtain ⟨hstage, hunknowns, hresult⟩ := hmiddle.conclude_eq
  rw [perform_of_idle hidle hstarts]
  refine ⟨r, ((e.start p clock).1.play turns).engine.guard.calledOff,
    (e.start p clock).2.1 ++ ((e.start p clock).1.play turns).signals, ?_, ?_, hresult, ?_⟩
  · rw [hstage]
    exact hr
  -- the finishing event announces no block
  · rw [unknowns_append _ (conclude _).2.1, hunknowns, List.append_nil]
  · intro hstop
    rw [hperforming.calledOff_play hstop, guard_start hidle hstarts]

end Engine

/-- A project to try a run on: two actors who rise, one of them after some nods, which nobody knows,
and a third one who is not there. One id leads nowhere. -/
def Project.sample : Project where
  program := .ofBlocks
    [⟨"cat", .start, .empty, [], some "thrice", []⟩,
      ⟨"thrice", .repeatForever, .empty, ["nod", "gone"], some "rise", []⟩,
      ⟨"nod", .custom "nod", .empty, [], none, []⟩,
      ⟨"rise", .moveUp, .empty, [], some "gone", []⟩,
      ⟨"dog", .start, .insert .empty "actor" (.text "Dog"), [], some "rise", []⟩,
      ⟨"ghost", .start, .insert .empty "actor" (.text "Ghost"), [], some "rise", []⟩]
  actors := [⟨"Cat", "Cat", "cat.png"⟩, ⟨"Dog", "Dog", "dog.png"⟩]
  backdrop := none

/-- An engine to try a run on: it knows the repertoire the engines come with and shows a frame twice
in a second, so that each movement has two of them. -/
def Engine.sample (scheduling : Scheduling) : Engine := .fresh .builtin (.ofMillis 500) scheduling

/-! ### Counting -/

section Tally

variable (number : Nat) (score : Score) (scheduling : Scheduling)

/-- **What a run has told of what it did**: as many operations as it carried out blocks, and an
announcement of each block that is of a kind without a routine. The number, score and scheduling a
run was begun with are kept beside it, since the score says which kinds those are. -/
structure Run.Tally (r : Run) (_s : Stage) (_off : Bool) (signals : List Signal)
    (deeds : List Deed) : Prop where
  number_eq : r.number = number
  score_eq : r.score = score
  scheduling_eq : r.scheduling = scheduling
  operations_eq : r.operations = deeds.length
  unknowns_eq : unknowns signals = deeds.filterMap fun d => score.repertoire.unknown? d.block

/-- The tally is an account, for every repertoire out of the builtin ones. A chain's step counts one
operation where it enters a block and none where it shows a frame, and it announces that block where
nobody knows how to perform it. -/
theorem Run.account_tally (hpart : score.repertoire.IsPartOf .builtin) :
    Run.Account (Run.Tally number score scheduling) where
  stop h := ⟨h.number_eq, h.score_eq, h.scheduling_eq, h.operations_eq, h.unknowns_eq⟩
  chain := by
    intro r s off signals deeds i h
    refine r.step_cases off s i
      (motive := fun after deed? => Run.Tally number score scheduling after.1 after.2.1 off
        (signals ++ after.2.2) (deeds ++ deed?.toList)) ?idle ?acting
    -- nothing was done, and nothing is added
    case idle => exact fun _ => by simpa only [Option.toList_none, List.append_nil] using h
    case acting =>
      intro cs c cs' cs'' _ _ _ _
      refine ⟨h.number_eq, h.score_eq, h.scheduling_eq, ?_, ?_⟩
      -- one operation for the block that is entered, if one is
      · rw [Chain.step_counted, h.operations_eq, List.length_append]
        cases c.entering? off <;> rfl
      -- and one announcement for it, if there is no routine for its kind
      · rw [unknowns_append, h.unknowns_eq, h.score_eq, Chain.step_unknowns hpart,
          List.filterMap_append]
        cases c.entering? off <;> rfl

end Tally

end StagePlay
