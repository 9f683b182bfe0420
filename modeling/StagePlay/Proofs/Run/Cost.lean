import StagePlay.Proofs.Chain.Alone
import StagePlay.Proofs.Chain.Cost
import StagePlay.Proofs.Engine.Turns

/-!
# What a run costs

All at once, every chain of a run begins with the run. One after the other, a chain begins when the
one before it is completed, which hands over its clock. `Run.OnTime` says both, of a run at work: each
chain is on time from the beginning that it has.

At the end, each chain has taken as long as its start block costs. So the clock of the last chain
stands at the sum of the costs where they have their turns one after the other, and no clock is beyond
the largest of the costs where they have them all at once (`Run.OnTime.total`).
-/

namespace StagePlay

variable {score : Score} {p : Nat} {set : Stage}

/-! ### Chains one after the other -/

/-- **Chains that are on time one after the other**: each began when the one before it was
completed, and behind one that is at work nobody has begun. The constructors follow the list: the
chains that are done, then at most one at work, and those that wait with it. -/
inductive InLine (score : Score) (p : Nat) (set : Stage) : Nat → List Chain → List Block → Prop where
  /-- Nobody is left in line. -/
  | nil {start : Nat} : InLine score p set start [] []
  /-- The first one is completed, and the rest is in line from the time at which it ended. -/
  | done {start : Nat} {c : Chain} {cs : List Chain} {b : Block} {bs : List Block}
      (hc : c.OnTime score p set start b) (hended : c.ending? = some .completed)
      (hrest : InLine score p set c.clock cs bs) : InLine score p set start (c :: cs) (b :: bs)
  /-- The first one is at work, and all behind it are as they were made, whatever their clocks. -/
  | going {start : Nat} {c : Chain} {cs : List Chain} {b : Block} {bs : List Block}
      (hc : c.OnTime score p set start b) (hgoing : c.ending? = none)
      (hrest : List.Forall₂ (fun c b => ∃ clock, c = .ofStart (Run.ownerOf set b) clock b) cs bs) :
      InLine score p set start (c :: cs) (b :: bs)

namespace InLine

variable {start : Nat} {c c' : Chain} {cs cs' : List Chain} {bs : List Block}

/-- A chain that has not begun has not ended: it walks, with its start block to be entered. -/
theorem ending?_of_fresh
    (h : List.Forall₂ (fun c b => ∃ clock, c = .ofStart (Run.ownerOf set b) clock b) cs bs)
    (hc : c ∈ cs) : c.ending? = none := by
  induction h with
  | nil => exact nomatch hc
  | cons hd _ ih =>
    rcases List.mem_cons.mp hc with rfl | hc
    · obtain ⟨clock, rfl⟩ := hd
      rfl
    · exact ih hc

/-- Chains that have not begun are in line, once the first of them has its clock. The clocks of the
others do not matter yet, as each is handed one when its turn comes. -/
theorem of_fresh (clock : Nat)
    (h : List.Forall₂ (fun c b => ∃ clock, c = .ofStart (Run.ownerOf set b) clock b) cs bs) :
    InLine score p set clock (cs.modifyHead fun next => { next with clock }) bs := by
  cases h with
  | nil => exact .nil
  | cons hc hcs =>
    obtain ⟨clock', rfl⟩ := hc
    exact .going (Chain.onTime_ofStart score p set clock _) rfl hcs

/-- Chains that begin together are in line: the first one is at work, and the others wait. -/
theorem of_starts (clock : Nat) (bs : List Block) :
    InLine score p set clock (bs.map fun b => .ofStart (Run.ownerOf set b) clock b) bs := by
  cases bs with
  | nil => exact .nil
  | cons b bs =>
    exact .going (Chain.onTime_ofStart score p set clock b) rfl
      (List.forall₂_map_left_iff.mpr (List.forall₂_same.mpr fun b _ => ⟨clock, rfl⟩))

/-- A chain that is on time has ended by being completed, or has not ended. In the former case its
clock is handed over, and the next chain begins then. -/
theorem cons_of_onTime {b : Block} (hc : c.OnTime score p set start b)
    (hrest : List.Forall₂ (fun c b => ∃ clock, c = .ofStart (Run.ownerOf set b) clock b) cs bs) :
    InLine score p set start
      (c :: if c.ending? = some .completed then cs.modifyHead fun next => { next with clock := c.clock }
        else cs) (b :: bs) := by
  cases hended : c.ending? with
  | none => exact .going hc hended hrest
  | some how =>
    obtain ⟨rfl, -⟩ := hc.ended how hended
    exact .done hc hended (of_fresh c.clock hrest)

/-- **A step of the chain whose turn it is** keeps the chains in line. The induction walks along
those before it, which are all completed, down to the chain itself. -/
theorem step (h : InLine score p set start (cs ++ c :: cs') bs)
    (hbefore : ∀ d ∈ cs, d.ending? = some .completed) (hgoing : c.ending? = none)
    (hstep : ∀ start b, c.OnTime score p set start b → c'.OnTime score p set start b) :
    InLine score p set start
      (cs ++ c' :: if c'.ending? = some .completed then
        cs'.modifyHead fun next => { next with clock := c'.clock } else cs') bs := by
  induction cs generalizing start bs with
  | nil =>
    cases h with
    | done _ hended _ => exact nomatch hgoing.symm.trans hended
    | going hc _ hrest => exact cons_of_onTime (hstep _ _ hc) hrest
  | cons d ds ih =>
    have hd := hbefore d List.mem_cons_self
    cases h with
    -- the chains before the one that acts are completed, so none of them is at work
    | going _ hnot _ => exact nomatch hnot.symm.trans hd
    | done hc hended hrest =>
      exact .done hc hended (ih hrest fun d hd => hbefore d (List.mem_cons_of_mem _ hd))

/-- A chain in line can end in no other way than by being completed, since one that is on time does
not end otherwise. -/
theorem completed (h : InLine score p set start cs bs) (hc : c ∈ cs) {how : Ending}
    (hended : c.ending? = some how) : how = .completed := by
  induction h with
  | nil => exact nomatch hc
  | going hd _ hrest =>
    rcases List.mem_cons.mp hc with rfl | hc
    · exact (hd.ended how hended).1
    · exact nomatch (ending?_of_fresh hrest hc).symm.trans hended
  | done hd _ _ ih =>
    rcases List.mem_cons.mp hc with rfl | hc
    · exact (hd.ended how hended).1
    · exact ih hc

/-- Behind a chain that is at work nobody has ended. This is what the schedule of a session needs to
know when it looks for the next chain. -/
theorem ending?_behind (h : InLine score p set start cs bs) {i : Nat} {c c' : Chain}
    (hc : cs[i]? = some c) (hgoing : c.ending? = none) (hc' : cs[i + 1]? = some c') :
    c'.ending? = none := by
  induction h generalizing i with
  | nil => exact nomatch hc
  | going _ _ hrest => exact ending?_of_fresh hrest (List.mem_of_getElem? hc')
  | done _ hended _ ih =>
    cases i with
    | succ i => exact ih hc hc'
    | zero =>
      obtain rfl := Option.some.inj hc
      exact nomatch hgoing.symm.trans hended

/-- A chain is on time from the end of the one before it on: it was handed that clock, and its own
time has only gone forward since. -/
theorem clock_le_time (h : InLine score p set start cs bs) {i : Nat} {c c' : Chain}
    (hc : cs[i]? = some c) (hended : c.ending? = some .completed) (hc' : cs[i + 1]? = some c') :
    c.clock ≤ c'.time := by
  induction h generalizing i with
  | nil => exact nomatch hc
  | going _ hgoing hrest =>
    -- a completed chain stands before the one at work, so this case does not come up
    cases i with
    | zero =>
      obtain rfl := Option.some.inj hc
      exact nomatch hgoing.symm.trans hended
    | succ i =>
      exact nomatch (ending?_of_fresh hrest (List.mem_of_getElem? hc)).symm.trans hended
  | done hd _ hrest ih =>
    cases i with
    | succ i => exact ih hc hc'
    | zero =>
      obtain rfl := Option.some.inj hc
      cases hrest with
      | nil => exact nomatch hc'
      | done hfirst | going hfirst =>
        obtain rfl := Option.some.inj hc'
        exact hfirst.begun

/-- **The clock of the last chain** stands at the sum of the costs: each chain adds its own to the
clock it was handed. -/
theorem total (h : InLine score p set start cs bs)
    (hended : ∀ c ∈ cs, c.ending? = some .completed) :
    ∃ costs, List.Forall₂ (score.program.Costs p set) bs costs ∧
      ∀ c, cs.getLast? = some c → c.clock = start + costs.sum := by
  induction h with
  | nil => exact ⟨[], .nil, nofun⟩
  | going _ hgoing _ => exact nomatch hgoing.symm.trans (hended _ List.mem_cons_self)
  | @done start c cs b bs hc hc' hrest ih =>
    obtain ⟨n, hcost, hclock⟩ := hc.costs hc'
    obtain ⟨costs, hcosts, hlast⟩ := ih fun d hd => hended d (List.mem_cons_of_mem _ hd)
    refine ⟨n :: costs, .cons hcost hcosts, fun d hd => ?_⟩
    rw [List.sum_cons, ← Nat.add_assoc, ← hclock]
    cases hcs : cs.getLast? with
    | none =>
      -- the chain is the last one itself
      obtain rfl := List.getLast?_eq_none_iff.mp hcs
      obtain rfl := Option.some.inj hd
      cases hcosts with
      | cons => cases hrest
      | nil => rfl
    | some e =>
      -- the last one is further behind, and began when this one ended
      rw [List.getLast?_cons, hcs] at hd
      obtain rfl := Option.some.inj hd
      exact hlast e hcs

end InLine

/-! ### Chains all at once -/

/-- One entry of a list may be replaced where it is related to what stands opposite, for something
that is related to it as well. -/
theorem forall₂_replace {α β : Type} {R : α → β → Prop} {a a' : α} {l l' : List α} {bs : List β}
    (h : List.Forall₂ R (l ++ a :: l') bs) (hstep : ∀ b, R a b → R a' b) :
    List.Forall₂ R (l ++ a' :: l') bs := by
  induction l generalizing bs with
  | nil =>
    cases h with
    | cons hhead htail => exact .cons (hstep _ hhead) htail
  | cons x l ih =>
    cases h with
    | cons hhead htail => exact .cons hhead (ih htail)

/-- What stands opposite to a member of a list. -/
theorem exists_of_forall₂_of_mem {α β : Type} {R : α → β → Prop} {a : α} {as : List α} {bs : List β}
    (h : List.Forall₂ R as bs) (ha : a ∈ as) : ∃ b, b ∈ bs ∧ R a b := by
  induction h with
  | nil => exact nomatch ha
  | cons hhead _ ih =>
    rcases List.mem_cons.mp ha with rfl | ha
    · exact ⟨_, List.mem_cons_self, hhead⟩
    · obtain ⟨b, hb, hab⟩ := ih ha
      exact ⟨b, List.mem_cons_of_mem _ hb, hab⟩

/-- **The largest of the costs** is the least time by which all chains that began together have
ended. Both halves are needed: no clock is beyond it, and no earlier time is beyond all clocks. -/
theorem largest_cost {start : Nat} {cs : List Chain} {bs : List Block}
    (h : List.Forall₂ (fun c b => c.OnTime score p set start b) cs bs)
    (hended : ∀ c ∈ cs, c.ending? = some .completed) :
    ∃ costs, List.Forall₂ (score.program.Costs p set) bs costs ∧
      (∀ c ∈ cs, c.clock ≤ start + costs.foldr max 0) ∧
      ∀ now, start ≤ now → (∀ c ∈ cs, c.clock ≤ now) → start + costs.foldr max 0 ≤ now := by
  induction h with
  | nil => exact ⟨[], .nil, nofun, fun now hstart _ => hstart⟩
  | @cons c b cs bs hc _ ih =>
    obtain ⟨n, hcost, hclock⟩ := hc.costs (hended c List.mem_cons_self)
    obtain ⟨costs, hcosts, hbelow, hleast⟩ := ih fun d hd => hended d (List.mem_cons_of_mem _ hd)
    refine ⟨n :: costs, .cons hcost hcosts, ?_, fun now hstart hnow => ?_⟩
    · rw [List.foldr_cons]
      refine List.forall_mem_cons.mpr ⟨?_, fun d hd => ?_⟩
      · omega
      · have hd' := hbelow d hd
        omega
    · obtain ⟨hhead, htail⟩ := List.forall_mem_cons.mp hnow
      have hrest := hleast now hstart htail
      rw [List.foldr_cons]
      omega

/-! ### Runs -/

/-- **Chains on time**, one after the other or all at once. -/
def Scheduling.OnTime (score : Score) (p : Nat) (set : Stage) (start : Nat) :
    Scheduling → List Chain → List Block → Prop
  | .sequential => InLine score p set start
  | .concurrent => List.Forall₂ fun c b => c.OnTime score p set start b

/-- What some start blocks cost together, with their chains one after the other or all at once.
Without any start block this is nothing, in both cases. -/
def Scheduling.total : Scheduling → List Nat → Nat
  | .sequential, costs => costs.sum
  | .concurrent, costs => costs.foldr max 0

namespace Run

/-- **A run on time**, from some time on: its chains are, and on the stage is who was there at the
beginning. The latter decides whether a move has anybody to animate, and so what it costs. -/
structure OnTime (score : Score) (p : Nat) (set : Stage) (start : Nat) (r : Run) (s : Stage) :
    Prop where
  score_eq : r.score = score
  figures : ∀ owner, (s.figureOf? owner).isSome = (set.figureOf? owner).isSome
  chains : r.scheduling.OnTime score p set start r.chains score.program.starts

variable {start : Nat} {r : Run} {s : Stage}

/-- A run begins on time, all its chains standing at the time at which it begins. -/
theorem onTime_ofScore (number : Nat) (score : Score) (p : Nat) (scheduling : Scheduling) (set : Stage)
    (clock : Nat) :
    (ofScore number score scheduling set clock).OnTime score p set clock set where
  score_eq := rfl
  figures _ := rfl
  chains := by
    change scheduling.OnTime score p set clock (score.program.starts.map _) score.program.starts
    cases scheduling with
    | sequential => exact .of_starts clock score.program.starts
    | concurrent =>
      exact List.forall₂_map_left_iff.mpr
        (List.forall₂_same.mpr fun b _ => Chain.onTime_ofStart score p set clock b)

/-- **A step of a chain that has not ended** keeps a run on time. That chain's own step keeps it on
time (`Chain.OnTime.step`); what is to be shown here is that the others are not put out. -/
theorem OnTime.step (hp : 1 ≤ p) (hp' : p ≤ longestWait) (hbuiltin : score.repertoire = .builtin)
    (hinterval : score.interval = .ofMillis p) (h : r.OnTime score p set start s) {i : Nat} {c : Chain}
    (hc : r.chains[i]? = some c) (hgoing : c.ending? = none) :
    (r.step false s i).1.OnTime score p set start (r.step false s i).2.1 := by
  cases hmay : r.mayAct i with
  | false =>
    -- its turn has not come, and nothing happens
    rw [(step_of_not_mayAct (fun _ => hmay) false s).1]
    exact h
  | true => ?_
  obtain rfl := h.score_eq
  have hpart : r.score.repertoire.IsPartOf .builtin := by
    rw [hbuiltin]
    exact .refl _
  have hchain (start : Nat) (b : Block) (hb : c.OnTime r.score p set start b) :
      (c.step r.score ⟨s, r.operations, false⟩).1.OnTime r.score p set start b :=
    hb.step hp hp' hbuiltin hinterval rfl (h.figures c.owner)
  have hchains := chains_step_of_mayAct hc hmay false s
  obtain ⟨cs, cs', heq, rfl⟩ := exists_append_of_getElem? hc
  rw [put_append heq] at hchains
  refine ⟨r.score_step false s _, fun owner => ?_, ?_⟩
  -- the step alters a figure, but nobody comes or goes
  · obtain ⟨g, hg, hstage⟩ := @Chain.step_alters r.score ⟨s, r.operations, false⟩ hpart rfl c
    rw [(step_of_mayAct hc hmay false s).1, hstage, Stage.figureOf?_alter_isSome hg, h.figures]
  · have hbefore := h.chains
    rw [hchains, r.scheduling_step]
    rw [heq] at hbefore
    cases hscheduling : r.scheduling with
    | sequential =>
      rw [hscheduling] at hbefore
      simp only [decide_true, Bool.true_and, decide_eq_true_eq]
      refine InLine.step hbefore (fun d hd => ?_) hgoing hchain
      -- its turn has come, so the chains before it are completed
      obtain ⟨j, hj⟩ := List.mem_iff_getElem?.mp hd
      have hlt := (List.getElem?_eq_some_iff.mp hj).1
      refine (mayAct_of_sequential hscheduling).mp hmay j d hlt ?_
      rw [heq, List.getElem?_append_left hlt, hj]
    | concurrent =>
      rw [hscheduling] at hbefore
      exact forall₂_replace hbefore (hchain start)

/-- A chain of a run on time can end in no other way than by being completed, one after the other or
all at once. -/
theorem OnTime.completed (h : r.OnTime score p set start s) {c : Chain} (hc : c ∈ r.chains)
    {how : Ending} (hended : c.ending? = some how) : how = .completed := by
  have hchains := h.chains
  cases hscheduling : r.scheduling with
  | sequential =>
    rw [hscheduling] at hchains
    exact InLine.completed hchains hc hended
  | concurrent =>
    rw [hscheduling] at hchains
    obtain ⟨b, -, hb⟩ := exists_of_forall₂_of_mem hchains hc
    exact (hb.ended how hended).1

/-- **How long a run takes**: when all its chains have ended, at the clock of one of them, the last
one if they had their turns one after the other, the time that has passed is the total of the costs.
-/
theorem OnTime.total (h : r.OnTime score p set start s)
    (hended : ∀ c ∈ r.chains, c.ending? = some .completed) {now : Nat}
    (hclocks : ∀ c ∈ r.chains, c.clock ≤ now)
    (hnow : ∃ c ∈ r.chains, now ≤ c.clock ∧
      (r.scheduling = .sequential → r.chains.getLast? = some c)) :
    ∃ costs, List.Forall₂ (score.program.Costs p set) score.program.starts costs ∧
      now = start + r.scheduling.total costs := by
  have hchains := h.chains
  obtain ⟨c, hc, hle, hlast⟩ := hnow
  have hclock : c.clock = now := Nat.le_antisymm (hclocks c hc) hle
  cases hscheduling : r.scheduling with
  | sequential =>
    rw [hscheduling] at hchains
    obtain ⟨costs, hcosts, hsum⟩ := InLine.total hchains hended
    exact ⟨costs, hcosts, hclock ▸ hsum c (hlast hscheduling)⟩
  | concurrent =>
    rw [hscheduling] at hchains
    obtain ⟨costs, hcosts, hbelow, hleast⟩ := largest_cost hchains hended
    refine ⟨costs, hcosts, Nat.le_antisymm (hclock ▸ hbelow c hc) ?_⟩
    -- no clock is beyond now, and the costs are the least such bound
    refine hleast now ?_ hclocks
    obtain ⟨b, -, hb⟩ := exists_of_forall₂_of_mem hchains hc
    rw [← hclock, ← Chain.time_of_ending (hended c hc)]
    exact hb.begun

end Run

end StagePlay
