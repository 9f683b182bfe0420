import StagePlay.Proofs.Run.Cost
import StagePlay.Session.Basic

/-!
# Punctual runs

A chain has a clock of its own, and a session has the time at which it is. `Run.Punctual` says how the
two keep together while a run goes on: no clock is ahead of the time, whoever has a job is not behind
it, and whoever waits has a timer for just the time for which it waits. So no time passes while there is
something to do, and when all chains have ended, one of them has ended now.

Each piece of work of a session keeps this:

* `Punctual.mono`: jobs are taken off the queue, or others are put there that are not of the run;
* `Punctual.wait`: a chain gets a timer;
* `Punctual.step`: a chain takes a step;
* `Punctual.follow`, `Punctual.look`: a chain that has ended leaves its place to the next one, or to
  the look whether it was the last one;
* `Punctual.wake`: time passes to the next timer.
-/

namespace StagePlay

/-! ### Chains of a run -/

/-- What stands in the place of a chain that is put back: the chain itself, or else what was there,
perhaps with another clock. The latter happens in a line, where the chain behind the one that acts
is handed its clock. -/
theorem Run.getElem?_put {r : Run} {i j : Nat} {c d : Chain} (h : (r.put i c)[j]? = some d) :
    j = i ∧ d = c ∨ j ≠ i ∧ ∃ d', r.chains[j]? = some d' ∧
      (d = d' ∨ r.scheduling = .sequential ∧ d = { d' with clock := c.clock }) := by
  -- what was in the place, before the clock is handed over
  have hset {d : Chain} (hd : (r.chains.set i c)[j]? = some d) :
      j = i ∧ d = c ∨ j ≠ i ∧ r.chains[j]? = some d := by
    by_cases hij : i = j
    · subst hij
      obtain ⟨hlt, rfl⟩ := List.getElem?_eq_some_iff.mp hd
      exact .inl ⟨rfl, List.getElem_set_self _⟩
    · rw [List.getElem?_set_ne hij] at hd
      exact .inr ⟨Ne.symm hij, hd⟩
  unfold put at h
  dsimp only at h
  split at h
  · next hover =>
    -- the clock is handed over: the chain that gets it stands behind the one that is put back
    rw [List.getElem?_modify, Option.map_eq_map, Option.map_eq_some_iff] at h
    obtain ⟨d', hd', rfl⟩ := h
    rcases hset hd' with ⟨rfl, rfl⟩ | ⟨hne, hd'⟩
    · exact .inl ⟨rfl, if_neg (Nat.succ_ne_self j)⟩
    · refine .inr ⟨hne, d', hd', ?_⟩
      split
      · exact .inr ⟨of_decide_eq_true (Bool.and_eq_true_iff.mp hover).1, rfl⟩
      · exact .inl rfl
  -- nothing is handed over, and only the one place has changed
  · rcases hset h with hself | ⟨hne, hd⟩
    · exact .inl hself
    · exact .inr ⟨hne, d, hd, .inl rfl⟩

/-- A chain with another clock has come at least as far, if neither its own clock nor the other one
is behind. A chain that rests goes by the end of its rest, and any other one by its clock. -/
theorem Chain.le_time_of_clock {c : Chain} {now clock : Nat} (h : now ≤ c.time) (hclock : now ≤ clock) :
    now ≤ { c with clock }.time := by
  unfold time at h ⊢
  change now ≤ c.wake?.getD clock
  cases hwake : c.wake? with
  | none => exact hclock
  | some wake =>
    rw [hwake] at h
    exact h

/-! ### The invariant -/

namespace Run

/-- **One after the other, the chain that takes a step is the last one** if all have ended after it.
For those behind it cannot have begun while it was going on. -/
theorem OnTime.last_of_ended {r : Run} {score : Score} {p : Nat} {set : Stage} {start : Nat}
    {s : Stage} (h : r.OnTime score p set start s) (hscheduling : r.scheduling = .sequential)
    {i : Nat} {c : Chain} (hc : r.chains[i]? = some c) (hgoing : c.ending? = none)
    (hall : ∀ c ∈ (r.step false s i).1.chains, c.ending?.isSome) :
    (r.step false s i).1.chains[i + 1]? = none := by
  have hline := h.chains
  rw [hscheduling] at hline
  cases hnext : (r.step false s i).1.chains[i + 1]? with
  | none => rfl
  | some d' =>
    -- a chain behind the one that took the step has not ended
    have hended := hall d' (List.mem_of_getElem? hnext)
    obtain ⟨d, hd, hsame⟩ := chain_before_step_of_ne hnext (Nat.ne_of_lt (Nat.lt_succ_self i))
    rw [Chain.ending?_of_unclocked_eq hsame, InLine.ending?_behind hline hc hgoing hd] at hended
    exact nomatch hended

/-- **A run that keeps to the time of its session.** The first three fields say that nobody is early
or late; the last two, that the end of the run is noticed at the very time at which it comes. `jobs`
may hold other work, of which nothing is said. -/
structure Punctual (r : Run) (now : Nat) (jobs : List Job) (timers : List Timer) : Prop where
  /-- No chain is ahead of the time. -/
  clock : ∀ c ∈ r.chains, c.clock ≤ now
  /-- A chain with a job is not behind it. -/
  job : ∀ i c, .chain i ∈ jobs → r.chains[i]? = some c → now ≤ c.time
  /-- A timer goes off when its chain wants to go on, and that is later. -/
  timer : ∀ timer ∈ timers, now < timer.wake ∧
    ∃ c, r.chains[timer.chain]? = some c ∧ c.wake? = some timer.wake
  /-- Whether all chains have ended is looked at when one of them has ended now. -/
  collect : .collect ∈ jobs → r.scheduling = .concurrent ∧
    ∃ c ∈ r.chains, c.ending?.isSome ∧ now ≤ c.clock
  /-- When all chains have ended, this is yet to be noticed, and no time passes until it is. -/
  place : (∀ c ∈ r.chains, c.ending?.isSome) → .collect ∈ jobs ∨
    ∃ i c, .chain i ∈ jobs ∧ r.chains[i]? = some c ∧
      (r.scheduling = .sequential → r.chains[i + 1]? = none)

namespace Punctual

variable {r : Run} {now : Nat} {jobs jobs' : List Job} {timers : List Timer}

/-- Jobs of the run are taken off the queue, or other jobs put there. Only the last field can be
hurt by this, since somebody has to be left who will notice the end of the run. -/
theorem mono (h : r.Punctual now jobs timers)
    (hjobs : ∀ j ∈ jobs', Session.Job.isOfRun j = true → j ∈ jobs)
    (hplace : (∀ c ∈ r.chains, c.ending?.isSome) → .collect ∈ jobs' ∨
      ∃ i c, .chain i ∈ jobs' ∧ r.chains[i]? = some c ∧
        (r.scheduling = .sequential → r.chains[i + 1]? = none)) : r.Punctual now jobs' timers where
  clock := h.clock
  job i c hi := h.job i c (hjobs _ hi rfl)
  timer := h.timer
  collect hcollect := h.collect (hjobs _ hcollect rfl)
  place := hplace

/-- A job for a chain that there is not is taken off the queue. It was not the one by which the end
of the run is noticed, as that belongs to a chain. -/
theorem nobody {i : Nat} (h : r.Punctual now (.chain i :: jobs) timers) (hc : r.chains[i]? = none) :
    r.Punctual now jobs timers := by
  refine h.mono (fun j hj _ => List.mem_cons_of_mem _ hj) fun hall => ?_
  rcases h.place hall with hcollect | ⟨k, c, hk, hc', hlast⟩
  -- the end is noticed by the collecting job, or by the job of a chain; neither is the one taken
  -- off
  · rcases List.mem_cons.mp hcollect with hself | hcollect
    · exact nomatch hself
    · exact .inl hcollect
  · rcases List.mem_cons.mp hk with hself | hk
    · obtain rfl := Job.chain.inj hself
      exact nomatch hc.symm.trans hc'
    · exact .inr ⟨k, c, hk, hc', hlast⟩

/-- **A chain gets a timer** in place of its job. The timer is set for just the time for which the
chain waits, and that is yet to come. -/
theorem wait {i : Nat} {c : Chain} {wake : Nat} (h : r.Punctual now (.chain i :: jobs) timers)
    (hc : r.chains[i]? = some c) (hwake : c.wake? = some wake) (hlater : now < wake) :
    r.Punctual now jobs (timers ++ [⟨wake, i⟩]) where
  clock := h.clock
  job j d hj := h.job j d (List.mem_cons_of_mem _ hj)
  timer := List.forall_mem_append.mpr
    ⟨h.timer, List.forall_mem_singleton.mpr ⟨hlater, c, hc, hwake⟩⟩
  collect hcollect := h.collect (List.mem_cons_of_mem _ hcollect)
  place hall := by
    -- the chain that waits has not ended
    have hended := hall c (List.mem_of_getElem? hc)
    unfold Chain.ending? at hended
    unfold Chain.wake? at hwake
    split at hwake
    · next hstate =>
      rw [hstate] at hended
      exact nomatch hended
    · exact nomatch hwake

/-- **One after the other, the next chain gets a job** when the one before it is completed. It has
been handed the clock of the latter, so it is not behind the time, and nobody but it has to notice
the end of the run. -/
theorem follow {i : Nat} {c c' : Chain} (h : r.Punctual now (.chain i :: jobs) timers)
    (hc : r.chains[i]? = some c) (hended : c.ending?.isSome) (hc' : r.chains[i + 1]? = some c')
    (hscheduling : r.scheduling = .sequential) (hhanded : c.clock ≤ c'.time) :
    r.Punctual now (.chain (i + 1) :: jobs) timers where
  clock := h.clock
  job j d hj hd := by
    rcases List.mem_cons.mp hj with hself | hj
    · obtain rfl := Job.chain.inj hself
      obtain rfl := Option.some.inj (hc'.symm.trans hd)
      -- a chain that has ended stands at its clock, and that is now
      obtain ⟨how, hhow⟩ := Option.isSome_iff_exists.mp hended
      have hnow := h.job i c List.mem_cons_self hc
      rw [Chain.time_of_ending hhow] at hnow
      exact hnow.trans hhanded
    · exact h.job j d (List.mem_cons_of_mem _ hj) hd
  timer := h.timer
  collect hcollect := by
    rcases List.mem_cons.mp hcollect with hself | hcollect
    · exact nomatch hself
    · exact h.collect (List.mem_cons_of_mem _ hcollect)
  place hall := by
    rcases h.place hall with hcollect | ⟨j, d, hj, hd, hlast⟩
    · rcases List.mem_cons.mp hcollect with hself | hcollect
      · exact nomatch hself
      · exact .inl (List.mem_cons_of_mem _ hcollect)
    · rcases List.mem_cons.mp hj with hself | hj
      · -- the chain that leaves its place is not the last one
        obtain rfl := Job.chain.inj hself
        exact nomatch hc'.symm.trans (hlast hscheduling)
      · exact .inr ⟨j, d, List.mem_cons_of_mem _ hj, hd, hlast⟩

/-- **All at once, the run is to look** whether a chain that has ended was the last one. The chain
has ended now, so this is the time at which the run ends if it was. -/
theorem look {i : Nat} {c : Chain} (h : r.Punctual now (.chain i :: jobs) timers)
    (hc : r.chains[i]? = some c) (hended : c.ending?.isSome)
    (hscheduling : r.scheduling = .concurrent) : r.Punctual now (jobs ++ [.collect]) timers where
  clock := h.clock
  job j d hj hd := by
    rcases List.mem_append.mp hj with hj | hself
    · exact h.job j d (List.mem_cons_of_mem _ hj) hd
    · exact nomatch List.mem_singleton.mp hself
  timer := h.timer
  collect _ := by
    obtain ⟨how, hhow⟩ := Option.isSome_iff_exists.mp hended
    have hnow := h.job i c List.mem_cons_self hc
    rw [Chain.time_of_ending hhow] at hnow
    exact ⟨hscheduling, c, List.mem_of_getElem? hc, hended, hnow⟩
  place _ := .inl (List.mem_append_right _ (List.mem_singleton_self _))

/-- **Time passes to a later time**, when there is nothing to do and no timer is skipped. All that
waits for that time gets a job, and all other timers stay. -/
theorem wake {t : Nat} (h : r.Punctual now [] timers) (hlater : now ≤ t)
    (hnext : ∀ timer ∈ timers, t ≤ timer.wake) :
    r.Punctual t ((timers.filter fun timer => timer.wake ≤ t).map fun timer => .chain timer.chain)
      (timers.filter fun timer => !(timer.wake ≤ t)) where
  clock c hc := (h.clock c hc).trans hlater
  job i c hi hc := by
    -- only a chain whose timer has gone off has a job now, and it waited until now at least
    obtain ⟨timer, hmem, hself⟩ := List.mem_map.mp hi
    obtain rfl := Job.chain.inj hself
    obtain ⟨hmem, -⟩ := List.mem_filter.mp hmem
    obtain ⟨-, d, hd, hwake⟩ := h.timer timer hmem
    obtain rfl := Option.some.inj (hc.symm.trans hd)
    unfold Chain.time
    rw [hwake]
    exact hnext timer hmem
  timer timer hmem := by
    obtain ⟨hmem, hnot⟩ := List.mem_filter.mp hmem
    exact ⟨Nat.lt_of_not_le (by simpa using hnot), (h.timer timer hmem).2⟩
  collect hcollect := by
    obtain ⟨timer, -, hself⟩ := List.mem_map.mp hcollect
    exact nomatch hself
  place hall := by
    -- somebody would have something to do
    rcases h.place hall with hcollect | ⟨i, c, hi, -⟩
    · exact nomatch hcollect
    · exact nomatch hi

/-- A chain that is due has come up to now, neither more nor less: it is not behind because it has a
job, and not ahead because it need not wait. -/
theorem time_eq (h : r.Punctual now jobs timers) {i : Nat} {c : Chain} (hjob : .chain i ∈ jobs)
    (hc : r.chains[i]? = some c) (hdue : ∀ wake ∈ c.wake?, wake ≤ now) : c.time = now := by
  refine Nat.le_antisymm ?_ (h.job i c hjob hc)
  unfold Chain.time
  cases hwake : c.wake? with
  | none => exact h.clock c (List.mem_of_getElem? hc)
  | some wake => exact hdue wake hwake

/-- A chain that is due has no timer, since every timer is set for a time at which its chain wants
to go on and which is yet to come. -/
theorem chain_ne_of_due (h : r.Punctual now jobs timers) {i : Nat} {c : Chain}
    (hc : r.chains[i]? = some c) (hdue : ∀ wake ∈ c.wake?, wake ≤ now) {timer : Timer}
    (hmem : timer ∈ timers) : i ≠ timer.chain := by
  rintro rfl
  obtain ⟨hwake, d, hd, hwaits⟩ := h.timer timer hmem
  obtain rfl := Option.some.inj (hc.symm.trans hd)
  exact absurd (hdue _ hwaits) (Nat.not_le.mpr hwake)

/-- **A chain takes a step**, and keeps its job until it waits or has ended. Its clock stops at now,
and its rest, if it begins one, is still to come; chains beside it are untouched, and in a line the
next one may be handed this clock. -/
theorem step {score : Score} {p : Nat} {set : Stage} {start : Nat} {s : Stage} {i : Nat} {c : Chain}
    (h : r.Punctual now jobs timers) (honTime : r.OnTime score p set start s)
    (hjob : .chain i ∈ jobs) (hc : r.chains[i]? = some c) (hgoing : c.ending? = none)
    (hdue : ∀ wake ∈ c.wake?, wake ≤ now) : (r.step false s i).1.Punctual now jobs timers := by
  cases hmay : r.mayAct i with
  | false =>
    -- it is not its turn, and nothing happens
    rw [(step_of_not_mayAct (fun _ => hmay) false s).1]
    exact h
  | true => ?_
  -- the clock of the chain stops at now, and it is the only one that can be handed over
  have hstep := @Chain.time_step r.score ⟨s, r.operations, false⟩ rfl c
  rw [h.time_eq hjob hc hdue] at hstep
  obtain ⟨hclock, hlater⟩ := hstep
  have hchains := chains_step_of_mayAct hc hmay false s
  refine ⟨?clock, ?job, ?timer, ?collect, ?place⟩
  case clock =>
    intro d hd
    obtain ⟨j, hj⟩ := List.mem_iff_getElem?.mp hd
    rw [hchains] at hj
    -- the chain itself, another one with its own clock, or one that was handed this one's
    rcases getElem?_put hj with ⟨-, rfl⟩ | ⟨-, d', hd', rfl | ⟨-, rfl⟩⟩
    · exact hclock.le
    · exact h.clock d (List.mem_of_getElem? hd')
    · exact hclock.le
  case job =>
    intro j d hj hd
    rw [hchains] at hd
    rcases getElem?_put hd with ⟨-, rfl⟩ | ⟨-, d', hd', rfl | ⟨-, rfl⟩⟩
    · exact hlater
    · exact h.job j d hj hd'
    · exact Chain.le_time_of_clock (h.job j d' hj hd') hclock.ge
  case timer =>
    -- a chain with a timer is not the one that acts, so its rest is what it was
    intro timer hmem
    obtain ⟨hwake, d, hd, hwaits⟩ := h.timer timer hmem
    obtain ⟨d', hd', hsame⟩ :=
      chain_after_step_of_ne hd (h.chain_ne_of_due hc hdue hmem) false s
    refine ⟨hwake, d', hd', ?_⟩
    change d'.unclocked.wake? = _
    rw [hsame]
    exact hwaits
  case collect =>
    intro hcollect
    obtain ⟨hscheduling, d, hmem, hended, hnow⟩ := h.collect hcollect
    refine ⟨(r.scheduling_step false s i).trans hscheduling, ?_⟩
    obtain ⟨j, hd⟩ := List.mem_iff_getElem?.mp hmem
    have hne : i ≠ j := by
      rintro rfl
      obtain rfl := Option.some.inj (hc.symm.trans hd)
      rw [hgoing] at hended
      exact nomatch hended
    obtain ⟨d', hd', -⟩ := chain_after_step_of_ne hd hne false s
    refine ⟨d', List.mem_of_getElem? hd', ?_⟩
    -- all at once, no clock is handed over
    rw [hchains] at hd'
    rcases getElem?_put hd' with ⟨heq, -⟩ | ⟨-, d'', hd'', rfl | ⟨hsequential, -⟩⟩
    · exact absurd heq hne.symm
    · obtain rfl := Option.some.inj (hd.symm.trans hd'')
      exact ⟨hended, hnow⟩
    · exact nomatch hscheduling.symm.trans hsequential
  case place =>
    -- the chain that acts keeps its job, and in a line it is the last one where all have ended
    intro hall
    obtain ⟨c', hc', -⟩ := chain_after_step hc false s i
    refine .inr ⟨i, c', hjob, hc', fun hscheduling => ?_⟩
    rw [r.scheduling_step] at hscheduling
    exact honTime.last_of_ended hscheduling hc hgoing hall

end Punctual

end Run

end StagePlay
