import StagePlay.Proofs.Engine.Turns

/-!
# Exclusion

Many may call on one engine at once, each for a run or for a stop. A `Crowd` is an engine with its
callers in the middle of their calls, and `Crowd.Step` is what one of them does next:

* acquiring the guard and putting a fresh token in place is one step, under the lock of the token;
* a stop takes the lock, reads whether a run is going on, and calls off the token that is in place,
  in steps of their own;
* a run releases the guard without the lock, at any time, also in the middle of a stop.

The functions of an engine are such steps with nothing in between (`Crowd.moves_turn`,
`Crowd.moves_conclude`). Of the steps in any order, `Crowd.Inv` is the invariant: a run that holds
the guard holds the token in place, and a stop that is under way has seen just that run. From it,
`Crowd.orderly_of_moves`: one run at most holds the guard, and a stop reaches the run that it saw and
no other one.
-/

namespace StagePlay

/-- **What a caller did.** Runs have the number of their token, and stops are counted. -/
inductive Move where
  /-- A call for a run acquired the guard, with a fresh token. -/
  | acquired (run : Nat)
  /-- A call for a run was ignored. -/
  | ignored
  /-- Something was done that has nothing to do with the guard. -/
  | worked
  /-- A run released the guard. -/
  | released (run : Nat)
  /-- A stop took the lock and saw whether a run is going on, while some runs held the guard. -/
  | looked (stop : Nat) (saw : Bool) (holders : List Nat)
  /-- A stop called off a run, and gave back the lock. -/
  | calledOff (stop run : Nat)
  /-- A stop that saw no run gave back the lock. -/
  | left (stop : Nat)
  deriving DecidableEq

/-- Whether a move leaves the token and the calls for it alone. -/
def Move.isQuiet : Move → Bool
  | acquired _ | looked _ _ _ | calledOff _ _ => false
  | ignored | worked | released _ | left _ => true

/-- **An engine and its callers.** The engine alone does not say who is in the middle of a call, so
the runs that hold the guard and the stop that has the lock are kept beside it. -/
structure Crowd where
  engine : Engine
  /-- The runs that have acquired the guard and not released it. -/
  holders : List Nat
  /-- The number of stops so far. -/
  stops : Nat
  /-- The stop that has the lock, and what it saw. -/
  stopping : Option (Nat × Bool)

namespace Crowd

/-- An engine on which nobody calls. -/
def ofEngine (e : Engine) : Crowd := ⟨e, [], 0, none⟩

/-- The crowd with another guard at its engine. -/
def withGuard (c : Crowd) (g : Guard) : Crowd := { c with engine := { c.engine with guard := g } }

/-- **What a caller can do next.** Each rule is one atomic access to the engine. Those that need the
lock of the token ask that no stop has it (`hlock`); giving the guard back does not. -/
inductive Step (c : Crowd) : Move → Crowd → Prop where
  /-- A call finds the guard free: it takes it and puts a fresh token in place. -/
  | acquire {g : Guard} (hlock : c.stopping = none) (hg : c.engine.guard.acquire? = some g) :
      Step c (.acquired g.number) { c.withGuard g with holders := g.number :: c.holders }
  /-- A call finds the guard taken. -/
  | ignore (p : Project) (clock : Nat) (hlock : c.stopping = none)
      (hg : c.engine.guard.acquire? = none) :
      Step c .ignored { c with engine := (c.engine.start p clock).1 }
  /-- Anything that leaves the guard alone. -/
  | work {e : Engine} (he : e.guard = c.engine.guard) : Step c .worked { c with engine := e }
  /-- A run gives the guard back, whatever a stop is doing meanwhile. -/
  | release {n : Nat} (hn : n ∈ c.holders) :
      Step c (.released n)
        { c.withGuard c.engine.guard.release with holders := c.holders.erase n }
  /-- A stop takes the lock and reads whether a run is going on. -/
  | look (hlock : c.stopping = none) :
      Step c (.looked c.stops c.engine.isRunning c.holders)
        { c with stops := c.stops + 1, stopping := some (c.stops, c.engine.isRunning) }
  /-- It saw one, calls off the token in place and gives back the lock. -/
  | callOff {k : Nat} (hstop : c.stopping = some (k, true)) :
      Step c (.calledOff k c.engine.guard.number)
        { c.withGuard c.engine.guard.callOff with stopping := none }
  /-- It saw none and gives back the lock. -/
  | leave {k : Nat} (hstop : c.stopping = some (k, false)) :
      Step c (.left k) { c with stopping := none }

/-- **What callers do in any order**, the last move last. -/
inductive Moves (c : Crowd) : List Move → Crowd → Prop where
  | refl : Moves c [] c
  | step {moves : List Move} {c' c'' : Crowd} {move : Move} (hmoves : Moves c moves c')
      (hstep : c'.Step move c'') : Moves c (moves ++ [move]) c''

/-! ### The functions of an engine as moves -/

/-- **A turn of an engine is made of moves** with nothing of anyone else in between. So the moves
allow all that the functions of an engine do, and more: other callers may act between any two of
them. -/
theorem moves_turn {c : Crowd} (hlock : c.stopping = none) (t : Turn) :
    ∃ moves c', c.Moves moves c' ∧ c'.engine = (c.engine.turn t).1 ∧ c'.stopping = none := by
  cases t with
  | chain i =>
    -- a step of a chain leaves the guard alone
    refine ⟨_, _, Moves.refl.step (.work (e := (c.engine.step i).1) ?_), rfl, hlock⟩
    unfold Engine.step
    split <;> rfl
  | stop =>
    -- a stop looks first, and then calls off or leaves
    have hlook : c.Moves _ _ := Moves.refl.step (.look hlock)
    rw [Engine.turn_stop]
    unfold Engine.stop Guard.stop
    cases hheld : c.engine.guard.held with
    | true =>
      have hsaw : c.engine.isRunning = true := hheld
      rw [hsaw] at hlook
      exact ⟨_, _, hlook.step (.callOff rfl), rfl, rfl⟩
    | false =>
      have hsaw : c.engine.isRunning = false := hheld
      rw [hsaw] at hlook
      exact ⟨_, _, hlook.step (.leave rfl), rfl, rfl⟩
  | ask p clock =>
    rw [Engine.turn_ask]
    -- a request acquires the guard or is ignored
    cases hg : c.engine.guard.acquire? with
    | none => exact ⟨_, _, Moves.refl.step (.ignore p clock hlock hg), rfl, hlock⟩
    | some g =>
      have hacquire := Moves.refl.step (Step.acquire hlock hg)
      obtain ⟨hidle, hfresh⟩ := Guard.acquire?_eq_some.mp hg
      by_cases hstarts : p.program.starts = []
      · -- the run is over at once: the stage is set, and the guard is released
        rw [Engine.start_of_idle_of_nothing hidle p clock hstarts]
        refine ⟨_, _, (hacquire.step (.work (e := { c.engine with
          stage := c.engine.stage.set p.actors p.backdrop, guard := g }) rfl)).step
            (.release List.mem_cons_self), ?_, hlock⟩
        rw [hfresh]
        rfl
      -- the run goes on: what it does to the stage is a move of its own
      · rw [Engine.start_of_idle hidle p clock hstarts]
        refine ⟨_, _, hacquire.step (.work ?_), rfl, hlock⟩
        rw [hfresh]
        rfl

/-- **The end of a run is made of moves** of the run that holds the guard. -/
theorem moves_conclude {c : Crowd} {n : Nat} (hn : n ∈ c.holders) :
    ∃ moves c', c.Moves moves c' ∧ c'.engine = c.engine.conclude.1 := by
  have habandon : ∃ moves c', c.Moves moves c' ∧ c'.engine = c.engine.abandon :=
    ⟨_, _, (Moves.refl.step (.work (e := { c.engine with run? := none }) rfl)).step (.release hn), rfl⟩
  exact c.engine.conclude_cases
    (motive := fun finale => ∃ moves c', c.Moves moves c' ∧ c'.engine = finale.1) ⟨_, _, .refl, rfl⟩
    (fun _ _ _ => habandon) fun _ _ _ _ => habandon

end Crowd

/-! ### Before and after -/

/-- Among some moves, one came before another one. -/
def Precedes (moves : List Move) (first second : Move) : Prop := [first, second].Sublist moves

section Precedes

variable {moves : List Move} {first second move : Move}

theorem Precedes.mem_left (h : Precedes moves first second) : first ∈ moves :=
  h.subset List.mem_cons_self

theorem not_precedes_nil : ¬Precedes [] first second := fun h =>
  absurd h.mem_left List.not_mem_nil

/-- A last move comes after all others, and before none. -/
theorem precedes_append :
    Precedes (moves ++ [move]) first second ↔
      Precedes moves first second ∨ first ∈ moves ∧ second = move := by
  unfold Precedes
  rw [List.sublist_append_iff]
  constructor
  · rintro ⟨l, l', hl, hmoves, hmove⟩
    cases hmove with
    | cons _ hnil =>
      -- the last move is not among the two
      obtain rfl := List.sublist_nil.mp hnil
      rw [List.append_nil] at hl
      exact Or.inl (hl ▸ hmoves)
    | cons_cons _ hnil =>
      -- the last move is the second of them
      obtain rfl := List.sublist_nil.mp hnil
      obtain ⟨rfl, hsecond⟩ := List.append_inj' (show [first] ++ [second] = l ++ [move] from hl) rfl
      obtain rfl : second = move := by simpa using hsecond
      exact Or.inr ⟨List.singleton_sublist.mp hmoves, rfl⟩
  · rintro (h | ⟨hfirst, rfl⟩)
    · exact ⟨_, [], (List.append_nil _).symm, h, List.nil_sublist _⟩
    · exact ⟨[first], [second], rfl, List.singleton_sublist.mpr hfirst, List.Sublist.refl _⟩

end Precedes

/-! ### The invariant -/

namespace Crowd

/-- **What holds after any moves** at an engine on which nobody had called. The clauses
`stopping_looked` and `stopping_last` are about the stop that is under way, the only one that can
still call anything off: it saw the run whose token is in place, and no run has come since. The
clauses below them say the same of the stops that are over, and are kept because these two hold at
the time at which a stop calls off. -/
structure Inv (moves : List Move) (c : Crowd) : Prop where
  /-- The guard is held by the run whose token is in place, or by none. -/
  holders_eq : c.holders = if c.engine.guard.held then [c.engine.guard.number] else []
  /-- No run has a token that is yet to come. -/
  acquired_le : ∀ n, .acquired n ∈ moves → n ≤ c.engine.guard.number
  calledOff_le : ∀ k n, .calledOff k n ∈ moves → n ≤ c.engine.guard.number
  /-- Stops are counted. -/
  looked_lt : ∀ k saw hs, .looked k saw hs ∈ moves → k < c.stops
  /-- A stop under way that saw a run saw the one whose token is in place. -/
  stopping_looked : ∀ k, c.stopping = some (k, true) →
    .looked k true [c.engine.guard.number] ∈ moves
  /-- No run has acquired the guard since the stop under way has looked. -/
  stopping_last : ∀ k saw, c.stopping = some (k, saw) →
    ∀ saw' hs n, ¬Precedes moves (.looked k saw' hs) (.acquired n)
  /-- A stop that saw a run is under way, or has called off just that run. -/
  answered : ∀ k hs, .looked k true hs ∈ moves → ∃ n, hs = [n] ∧
    (c.stopping = some (k, true) ∧ n = c.engine.guard.number ∨
      Precedes moves (.looked k true [n]) (.calledOff k n))
  /-- A stop that called off a run had seen it. -/
  targeted : ∀ k n, .calledOff k n ∈ moves → Precedes moves (.looked k true [n]) (.calledOff k n)
  /-- A stop spares the runs that begin after it has looked. -/
  spared : ∀ k saw hs n, Precedes moves (.looked k saw hs) (.acquired n) →
    .calledOff k n ∉ moves
  /-- The token in place is called off by stops alone. -/
  calledOff_iff : c.engine.guard.calledOff = true ↔
    ∃ k, .calledOff k c.engine.guard.number ∈ moves

theorem Inv.ofEngine {e : Engine} (he : e.guard = .fresh) : Inv [] (.ofEngine e) where
  holders_eq := by
    change [] = if e.guard.held then _ else _
    rw [he]
    rfl
  acquired_le _ h := nomatch h
  calledOff_le _ _ h := nomatch h
  looked_lt _ _ _ h := nomatch h
  stopping_looked _ h := nomatch h
  stopping_last _ _ h := nomatch h
  answered _ _ h := nomatch h
  targeted _ _ h := nomatch h
  spared _ _ _ _ h := absurd h not_precedes_nil
  calledOff_iff := by
    have hnot : e.guard.calledOff ≠ true := by rw [he]; decide
    exact ⟨fun h => absurd h hnot, fun ⟨_, h⟩ => nomatch h⟩

/-- **A quiet move** keeps what holds, if it leaves the token and the stop under way in place. It is
the case of all moves that neither bring a run, nor look, nor call off, so the other cases are one
lemma for each kind of move. -/
theorem Inv.quiet {moves : List Move} {move : Move} {c c' : Crowd} (h : Inv moves c)
    (hmove : move.isQuiet)
    (hholders : c'.holders = if c'.engine.guard.held then [c'.engine.guard.number] else [])
    (hnumber : c'.engine.guard.number = c.engine.guard.number)
    (hcalledOff : c'.engine.guard.calledOff = c.engine.guard.calledOff)
    (hstops : c'.stops = c.stops) (hstopping : ∀ stop, c'.stopping = some stop →
      c.stopping = some stop)
    (hpending : ∀ k, c.stopping = some (k, true) → c'.stopping = some (k, true)) :
    Inv (moves ++ [move]) c' := by
  -- what holds is about moves that are not quiet, so no clause sees the new one
  have hmem : ∀ m : Move, m.isQuiet = false → (m ∈ moves ++ [move] ↔ m ∈ moves) := by
    intro m hm
    rw [List.mem_append, List.mem_singleton]
    refine or_iff_left ?_
    rintro rfl
    exact absurd hmove (by rw [hm]; decide)
  have hprecedes : ∀ m m' : Move, m'.isQuiet = false →
      (Precedes (moves ++ [move]) m m' ↔ Precedes moves m m') := by
    intro m m' hm
    rw [precedes_append]
    refine or_iff_left ?_
    rintro ⟨-, rfl⟩
    exact absurd hmove (by rw [hm]; decide)
  refine ⟨hholders, ?acquired_le, ?calledOff_le, ?looked_lt, ?stopping_looked, ?stopping_last,
    ?answered, ?targeted, ?spared, ?calledOff_iff⟩
  case acquired_le =>
    intro n hn
    rw [hnumber]
    exact h.acquired_le n ((hmem _ rfl).mp hn)
  case calledOff_le =>
    intro k n hn
    rw [hnumber]
    exact h.calledOff_le k n ((hmem _ rfl).mp hn)
  case looked_lt =>
    intro k saw hs hk
    rw [hstops]
    exact h.looked_lt k saw hs ((hmem _ rfl).mp hk)
  case stopping_looked =>
    intro k hk
    rw [hnumber]
    exact (hmem _ rfl).mpr (h.stopping_looked k (hstopping _ hk))
  case stopping_last =>
    intro k saw hk saw' hs n hn
    exact h.stopping_last k saw (hstopping _ hk) saw' hs n ((hprecedes _ _ rfl).mp hn)
  case answered =>
    -- a stop that has yet to call off still has, and one that has called off has done so before
    intro k hs hk
    obtain ⟨n, hn, hend⟩ := h.answered k hs ((hmem _ rfl).mp hk)
    rw [hnumber]
    exact ⟨n, hn, hend.imp (fun hend => ⟨hpending k hend.1, hend.2⟩) (hprecedes _ _ rfl).mpr⟩
  case targeted =>
    intro k n hn
    exact (hprecedes _ _ rfl).mpr (h.targeted k n ((hmem _ rfl).mp hn))
  case spared =>
    intro k saw hs n hn hoff
    exact h.spared k saw hs n ((hprecedes _ _ rfl).mp hn) ((hmem _ rfl).mp hoff)
  case calledOff_iff =>
    rw [hcalledOff, hnumber, h.calledOff_iff]
    exact exists_congr fun k => (hmem _ rfl).symm

section Step

variable {moves : List Move} {c : Crowd}

/-- **A new run** has a token that no stop has called off, and none will that has looked already.
The lock is free at that time, so no stop is under way, and the number of the token is one that has
never been given out. -/
theorem Inv.acquire (h : Inv moves c) (hlock : c.stopping = none)
    (hheld : c.engine.guard.held = false) :
    Inv (moves ++ [.acquired (c.engine.guard.number + 1)])
      { c.withGuard ⟨true, c.engine.guard.number + 1, false⟩ with
        holders := (c.engine.guard.number + 1) :: c.holders } where
  -- nobody held the guard, and now the new run does
  holders_eq := by
    have hnobody := h.holders_eq
    rw [hheld] at hnobody
    rw [hnobody]
    rfl
  -- the number of the new run is that of the guard, and all others are below it
  acquired_le := by
    intro n hn
    rcases List.mem_append.mp hn with hn | hn
    · exact Nat.le_succ_of_le (h.acquired_le n hn)
    · obtain rfl : n = _ := by simpa using hn
      exact Nat.le_refl _
  -- the runs that were called off were there before
  calledOff_le := by
    intro k n hn
    have hbefore : .calledOff k n ∈ moves := by simpa using hn
    exact Nat.le_succ_of_le (h.calledOff_le k n hbefore)
  looked_lt := by
    intro k saw hs hk
    exact h.looked_lt k saw hs (by simpa using hk)
  -- no stop is under way
  stopping_looked k hk := absurd (hlock.symm.trans hk) (by simp)
  stopping_last k saw hk := absurd (hlock.symm.trans hk) (by simp)
  -- each stop that saw a run has called it off, as none is under way
  answered := by
    intro k hs hk
    obtain ⟨n, hn, hend⟩ := h.answered k hs (by simpa using hk)
    refine ⟨n, hn, Or.inr (precedes_append.mpr (Or.inl ?_))⟩
    exact hend.resolve_left fun hpending => absurd (hlock.symm.trans hpending.1) (by simp)
  -- the new run has not been called off, so these pairs of moves are old
  targeted := by
    intro k n hn
    exact precedes_append.mpr (Or.inl (h.targeted k n (by simpa using hn)))
  -- what comes after each look is a run that came before, or the new one
  spared := by
    intro k saw hs n hn hoff
    have hbefore : .calledOff k n ∈ moves := by simpa using hoff
    rcases precedes_append.mp hn with hn | ⟨-, hn⟩
    · exact h.spared k saw hs n hn hbefore
    · -- a token that is yet to come is not called off
      obtain rfl := Move.acquired.inj hn
      exact absurd (h.calledOff_le k _ hbefore) (Nat.not_succ_le_self _)
  -- the fresh token is not called off, and no stop has done so
  calledOff_iff := by
    refine iff_of_false Bool.false_ne_true fun hoff => ?_
    obtain ⟨k, hk⟩ := hoff
    have hbefore : .calledOff k (c.engine.guard.number + 1) ∈ moves := by
      simpa [withGuard] using hk
    exact absurd (h.calledOff_le k _ hbefore) (Nat.not_succ_le_self _)

/-- **A stop that looks** sees the run that holds the guard, if there is one. It is under way from
now on, and the lock keeps new runs away until it is over. -/
theorem Inv.look (h : Inv moves c) (hlock : c.stopping = none) :
    Inv (moves ++ [.looked c.stops c.engine.isRunning c.holders])
      { c with stops := c.stops + 1, stopping := some (c.stops, c.engine.isRunning) } where
  holders_eq := h.holders_eq
  acquired_le n hn := h.acquired_le n (by simpa using hn)
  calledOff_le k n hn := h.calledOff_le k n (by simpa using hn)
  -- the new stop has the next number
  looked_lt := by
    intro k saw hs hk
    rcases List.mem_append.mp hk with hk | hk
    · exact Nat.lt_succ_of_lt (h.looked_lt k saw hs hk)
    · obtain ⟨rfl, -⟩ : k = c.stops ∧ _ := by simpa using hk
      exact Nat.lt_succ_self _
  -- if it saw the engine running, then the token in place is that of the run that holds the guard
  stopping_looked := by
    intro k hk
    obtain ⟨rfl, hsaw⟩ : c.stops = k ∧ c.engine.isRunning = true := by simpa using hk
    have hholders := h.holders_eq
    rw [show c.engine.guard.held = true from hsaw, if_pos rfl] at hholders
    rw [hsaw, hholders]
    exact List.mem_append_right _ List.mem_cons_self
  -- nothing comes after the last move
  stopping_last := by
    intro k saw hk saw' hs n hn
    obtain ⟨rfl, -⟩ : c.stops = k ∧ _ := by simpa using hk
    have hbefore : Precedes moves (.looked c.stops saw' hs) (.acquired n) := by
      simpa [precedes_append] using hn
    exact absurd (h.looked_lt _ _ _ hbefore.mem_left) (Nat.lt_irrefl _)
  -- the stops before it, and the one that has just looked
  answered := by
    intro k hs hk
    rcases List.mem_append.mp hk with hk | hk
    · obtain ⟨n, hn, hend⟩ := h.answered k hs hk
      refine ⟨n, hn, Or.inr (precedes_append.mpr (Or.inl ?_))⟩
      -- no other stop is under way, so each one that looked before has called off its run
      exact hend.resolve_left fun hpending => absurd (hlock.symm.trans hpending.1) (by simp)
    · obtain ⟨rfl, hsaw, rfl⟩ : k = c.stops ∧ true = c.engine.isRunning ∧ hs = c.holders := by
        simpa using hk
      have hholders := h.holders_eq
      rw [show c.engine.guard.held = true from hsaw.symm, if_pos rfl] at hholders
      exact ⟨_, hholders, Or.inl ⟨by rw [← hsaw], rfl⟩⟩
  targeted k n hn := precedes_append.mpr (Or.inl (h.targeted k n (by simpa using hn)))
  spared := by
    intro k saw hs n hn hoff
    refine h.spared k saw hs n ?_ (by simpa using hoff)
    simpa [precedes_append] using hn
  calledOff_iff := by simpa using h.calledOff_iff

/-- **A stop that calls off** reaches the run that it saw. The token may have been released
meanwhile, but no other one has been put in its place. -/
theorem Inv.callOff (h : Inv moves c) {k : Nat} (hstop : c.stopping = some (k, true)) :
    Inv (moves ++ [.calledOff k c.engine.guard.number])
      { c.withGuard c.engine.guard.callOff with stopping := none } where
  holders_eq := h.holders_eq
  acquired_le n hn := h.acquired_le n (by simpa using hn)
  -- what is called off is the token in place
  calledOff_le := by
    intro k' n hn
    rcases List.mem_append.mp hn with hn | hn
    · exact h.calledOff_le k' n hn
    · obtain ⟨-, rfl⟩ : _ ∧ n = c.engine.guard.number := by simpa using hn
      exact Nat.le_refl _
  looked_lt k' saw hs hk := h.looked_lt k' saw hs (by simpa using hk)
  stopping_looked _ hk := nomatch hk
  stopping_last _ _ hk := nomatch hk
  answered := by
    intro k' hs hk
    have hlooked : .looked k' true hs ∈ moves := by simpa using hk
    obtain ⟨n, hn, hend⟩ := h.answered k' hs hlooked
    refine ⟨n, hn, Or.inr (precedes_append.mpr ?_)⟩
    rcases hend with ⟨hpending, rfl⟩ | hend
    · -- this is the stop that was under way
      obtain rfl : k = k' := by simpa using hstop.symm.trans hpending
      exact Or.inr ⟨hn ▸ hlooked, rfl⟩
    · exact Or.inl hend
  -- the run that is called off is the one that the stop saw
  targeted := by
    intro k' n hn
    refine precedes_append.mpr ?_
    rcases List.mem_append.mp hn with hn | hn
    · exact Or.inl (h.targeted k' n hn)
    · obtain ⟨rfl, rfl⟩ : k' = k ∧ n = c.engine.guard.number := by simpa using hn
      exact Or.inr ⟨h.stopping_looked k' hstop, rfl⟩
  -- no run has come between the look of this stop and now
  spared := by
    intro k' saw hs n hn hoff
    have hbefore : Precedes moves (.looked k' saw hs) (.acquired n) := by
      simpa [precedes_append] using hn
    rcases List.mem_append.mp hoff with hoff | hoff
    · exact h.spared k' saw hs n hbefore hoff
    · obtain ⟨rfl, -⟩ : k' = k ∧ _ := by simpa using hoff
      exact h.stopping_last k' true hstop saw hs n hbefore
  calledOff_iff := by
    refine ⟨fun _ => ⟨k, List.mem_append_right _ List.mem_cons_self⟩, fun _ => rfl⟩

/-- **Any move keeps what holds**: the three moves that are not quiet each by a lemma of their own,
the four others as quiet moves. -/
theorem Inv.step (h : Inv moves c) {move : Move} {c' : Crowd} (hstep : c.Step move c') :
    Inv (moves ++ [move]) c' := by
  cases hstep with
  | acquire hlock hg =>
    obtain ⟨hidle, rfl⟩ := Guard.acquire?_eq_some.mp hg
    exact h.acquire hlock hidle
  | ignore p clock hlock hg =>
    -- a call that is ignored changes nothing at all
    rw [Engine.start_of_held (Guard.acquire?_eq_none.mp hg)]
    exact h.quiet rfl h.holders_eq rfl rfl rfl (fun _ => id) fun _ => id
  | @work e he =>
    refine h.quiet rfl ?_ ?_ ?_ rfl (fun _ => id) fun _ => id
    · rw [he]
      exact h.holders_eq
    · rw [he]
    · rw [he]
  | @release n hn =>
    refine h.quiet rfl ?_ rfl rfl rfl (fun _ => id) fun _ => id
    -- the run that releases the guard is the only one that held it
    have hholders := h.holders_eq
    split at hholders
    · rw [hholders] at hn ⊢
      rw [List.mem_singleton.mp hn, List.erase_cons_head]
      rfl
    · rw [hholders] at hn
      exact absurd hn List.not_mem_nil
  | look hlock => exact h.look hlock
  | callOff hstop => exact h.callOff hstop
  | @leave k hstop =>
    -- the stop under way saw no run, so it owes no answer
    refine h.quiet rfl h.holders_eq rfl rfl rfl (fun _ hnone => nomatch hnone) fun k' hk' => ?_
    exact absurd (hstop.symm.trans hk') (by simp)

end Step

theorem Moves.inv {e : Engine} (he : e.guard = .fresh) {moves : List Move} {c : Crowd}
    (h : Moves (.ofEngine e) moves c) : Inv moves c := by
  induction h with
  | refl => exact Inv.ofEngine he
  | step _ hstep ih => exact ih.step hstep

/-! ### Order among the callers -/

/-- **Order among the callers** of an engine, after some moves. -/
structure Orderly (moves : List Move) (c : Crowd) : Prop where
  /-- One run at most holds the guard. -/
  exclusive : c.holders.length ≤ 1
  /-- The engine is running exactly while one does. -/
  running_iff : c.engine.isRunning = true ↔ ∃ n, c.holders = [n]
  /-- While a run holds the guard, a call for another one is ignored and changes nothing: not the
  stage, not the token, and not the run. -/
  ignored : c.holders ≠ [] → ∀ p clock, c.engine.start p clock = (c.engine, [], some ⟨.ignored, 0⟩)
  /-- A stop that saw the engine running saw one run, and it calls off that one, if it is not just
  about to. -/
  answered : ∀ k hs, .looked k true hs ∈ moves → ∃ n, hs = [n] ∧
    (c.stopping = some (k, true) ∧ n = c.engine.guard.number ∨
      Precedes moves (.looked k true [n]) (.calledOff k n))
  /-- A stop that calls off a run saw that run hold the guard before. -/
  targeted : ∀ k n, .calledOff k n ∈ moves → Precedes moves (.looked k true [n]) (.calledOff k n)
  /-- No stop calls off a run that acquires the guard after it has looked. -/
  spared : ∀ k saw hs n, Precedes moves (.looked k saw hs) (.acquired n) →
    .calledOff k n ∉ moves
  /-- The token in place is called off if a stop has done that, and not otherwise. -/
  calledOff_iff : c.engine.guard.calledOff = true ↔
    ∃ k, .calledOff k c.engine.guard.number ∈ moves

/-- **Whoever calls, and in whatever order**, there is order among the callers. -/
theorem orderly_of_moves {e : Engine} (he : e.guard = .fresh) {moves : List Move} {c : Crowd}
    (h : Moves (.ofEngine e) moves c) : Orderly moves c := by
  have hinv := h.inv he
  have hholders := hinv.holders_eq
  refine ⟨?_, ?_, ?_, hinv.answered, hinv.targeted, hinv.spared, hinv.calledOff_iff⟩
  -- the holders are one run or none, and which of the two the guard says
  · rw [hholders]
    split <;> simp
  · unfold Engine.isRunning
    rw [hholders]
    split <;> simp_all
  · intro hheld p clock
    have hguard : c.engine.guard.held = true := Decidable.byContradiction fun hnot =>
      hheld (by rw [hholders, if_neg hnot])
    exact Engine.start_of_held hguard p clock

/-- A run that ends in the middle of a stop, a stop that comes too late, and two more calls. The stop
calls off the run that it saw, and the run that comes after it goes on. -/
theorem orderly_late_stop :
    ∃ c, Orderly [.acquired 1, .looked 0 true [1], .released 1, .calledOff 0 1, .looked 1 false [],
        .left 1, .acquired 2, .ignored] c ∧
      c.holders = [2] ∧ c.engine.guard = ⟨true, 2, false⟩ := by
  -- a run, and a stop that looks at it; the run is over before it is called off
  have hrun := (Moves.refl (c := .ofEngine (.sample .sequential))).step
    (.acquire (g := ⟨true, 1, false⟩) rfl rfl)
  have hstop := ((hrun.step (.look rfl)).step (.release List.mem_cons_self)).step (.callOff rfl)
  -- a stop that sees nobody
  have hlate := (hstop.step (.look rfl)).step (.leave rfl)
  -- a second run, and a call that is ignored
  have hnext := (hlate.step (.acquire (g := ⟨true, 2, false⟩) rfl rfl)).step
    (.ignore .sample 0 rfl rfl)
  exact ⟨_, orderly_of_moves rfl hnext, rfl, rfl⟩

end Crowd

end StagePlay
