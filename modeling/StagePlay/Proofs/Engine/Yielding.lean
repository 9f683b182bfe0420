import StagePlay.Proofs.Chain.Way
import StagePlay.Proofs.Engine.Turns

/-!
# Chains that give the turn back

Where all chains share one thread, a chain that has its turn keeps it until it rests or ends. Only
then can anyone else do something, also call the run off. A chain that is called off always comes to
its end. One that is not called off need not even rest: start blocks and repetitions take no time,
and nobody looks for cycles, so a start block that is its own next block is carried out for ever
(`Engine.spinning_never_rests`).

What is true is exact. `Program.Leads` tells where a block leads that takes no time: to the blocks
that its chain comes to before anything else takes time. A chain gives the turn back if and only if
it comes at once to no block that leads back to itself.

* `Engine.Turning` — an engine at which a chain has its turn, and may have the next one too;
* `Engine.Turning.exists_rest`, `Engine.Turning.halts_of_brings` — it gives the turn back just where
  the way of its script comes to an end, among the blocks that take no time;
* `Engine.chain_yields`: the result, at any point that a run comes to.
-/

namespace StagePlay

open Relation

/-! ### Ways that pass no block -/

/-- A way that passes no block comes to an end: it cannot come back to where it was. This is the way
of a chain that is called off, which carries out no block any more. -/
theorem Program.halts_of_none_passed (p : Program) (ts : List Task) :
    p.Halts (fun _ => false) ts := by
  refine halts_iff.mpr fun b ts' _ hback => ?_
  -- to lead anywhere a block has to be passed, through its body or on to its next block
  have hpasses : ∀ {x y}, p.Leads (fun _ => false) x y → False := by
    intro x y hleads
    cases hleads with
    | child hpasses => exact Bool.false_ne_true hpasses
    | next hpasses => exact Bool.false_ne_true hpasses
  cases hback with
  | single hleads => exact hpasses hleads
  | tail _ hleads => exact hpasses hleads

/-- **A chain comes at once to a block** if it walks, and comes to it past blocks that take no time.
A chain that rests comes to nothing at once: it has given its turn back already. -/
def Chain.ComesAtOnce (score : Score) (c : Chain) (b : Block) : Prop :=
  c.state = .walking ∧
    ∃ ts, score.program.Walks score.repertoire.isInstant c.script (.enter b :: ts)

namespace Run

/-- A chain that had its turn may have the next one too. In a sequential run this is so because its
step does not touch the chains before it, all of which are completed. -/
theorem mayAct_step {r : Run} {i : Nat} (h : r.mayAct i = true) (off : Bool) (s : Stage) :
    (r.step off s i).1.mayAct i = true := by
  cases hscheduling : r.scheduling with
  | concurrent => exact mayAct_of_concurrent ((scheduling_step r off s i).trans hscheduling) i
  | sequential =>
    refine (mayAct_of_sequential ((scheduling_step r off s i).trans hscheduling)).mpr ?_
    -- the chains before it are as they were, but for their clocks
    intro j c' hj hc'
    obtain ⟨c, hc, heq⟩ := chain_before_step_of_ne hc' (Nat.ne_of_gt hj)
    rw [Chain.ending?_of_unclocked_eq heq]
    exact (mayAct_of_sequential hscheduling).mp h j c hj hc

/-- The chain that acts is found in its old place after its step, as that step leaves it. Nothing
else of the run has to be known, since `Run.put` keeps every chain where it is. -/
theorem getElem?_step_self {r : Run} {i : Nat} {c : Chain} (hc : r.chains[i]? = some c)
    (hmay : r.mayAct i = true) (off : Bool) (s : Stage) :
    (r.step off s i).1.chains[i]? = some (c.step r.score ⟨s, r.operations, off⟩).1 := by
  refine r.step_cases off s i (motive := fun after _ => after.1.chains[i]? = some _) ?idle ?acting
  -- the chain is there and it is its turn, so the step was not an idle one
  case idle => exact fun hidle => absurd (hidle (by rw [hc]; rfl)) (by rw [hmay]; decide)
  case acting =>
    rintro cs d cs' cs'' hchains rfl _ _
    -- before the step and after it, the chain stands behind the same number of others
    rw [hchains, List.getElem?_append_right (Nat.le_refl _), Nat.sub_self] at hc
    obtain rfl := Option.some.inj hc
    dsimp only
    rw [List.getElem?_append_right (Nat.le_refl _), Nat.sub_self]
    rfl

end Run

namespace Engine

/-- **An engine at which a chain has its turn.** The engine performs a run of the given score, the
chain is the one at the given place, and whether it is called off is part of what is known, since
the chain's behaviour depends on it. -/
structure Turning (e : Engine) (score : Score) (off : Bool) (i : Nat) (c : Chain) : Prop where
  /-- The engine is at a run of that score, and the chain is the one that may act there. -/
  run : ∃ r, e.Performing r ∧ r.score = score ∧ r.chains[i]? = some c ∧ r.mayAct i = true
  /-- Whether the run is called off, which no turn of the chain changes. -/
  calledOff_eq : e.guard.calledOff = off

/-- **Turns of one chain alone bring it to where something holds of it.** Nobody else acts in
between: on a shared thread nobody can, as long as the chain does not give its turn back. -/
def Brings (e : Engine) (i : Nat) (P : Chain → Prop) : Prop :=
  ∃ n c, (e.play (List.replicate n (.chain i))).engine.chain? i = some c ∧ P c

/-- The first of several equal turns can be taken off the front, which is how the inductions below
count them. -/
theorem play_replicate_succ (e : Engine) (n : Nat) (t : Turn) :
    (e.play (List.replicate (n + 1) t)).engine =
      ((e.turn t).1.play (List.replicate n t)).engine := rfl

namespace Turning

variable {e : Engine} {score : Score} {off : Bool} {i : Nat} {c : Chain}

/-- The chain that has its turn is the one the engine finds at that place, so `Brings` and `Turning`
speak of the same chain. -/
theorem chain?_eq (h : e.Turning score off i c) : e.chain? i = some c := by
  obtain ⟨r, hr, -, hc, -⟩ := h.run
  exact (hr.chain?_eq i).trans hc

/-- **A turn of the chain** is a step of it, and the next turn may be its own again. The scene of
that step is the engine's stage and count, with the same answer to whether the run is called off. -/
theorem turn (h : e.Turning score off i c) : ∃ scene : Scene, scene.cancelled = off ∧
    (e.turn (.chain i)).1.Turning score off i (c.step score scene).1 := by
  obtain ⟨r, hr, hscore, hc, hmay⟩ := h.run
  obtain ⟨hperforming, hguard, -⟩ := hr.step i
  refine ⟨⟨e.stage.stage, r.operations, e.guard.calledOff⟩, h.calledOff_eq,
    ⟨_, hperforming, ?score, ?chain, ?acts⟩, ?off⟩
  case score => exact (r.score_step _ _ i).trans hscore
  case chain =>
    rw [← hscore]
    exact Run.getElem?_step_self hc hmay _ _
  case acts => exact Run.mayAct_step hmay _ _
  case off => exact (congrArg Guard.calledOff hguard).trans h.calledOff_eq

variable (hpart : score.repertoire.IsPartOf .builtin)

include hpart

/-- **A chain gives the turn back** if its way comes to an end among the blocks that take no time;
or among no blocks at all, if it is called off. The induction is on the way of the script, which
shrinks with every turn the chain walks on. -/
theorem exists_rest (h : e.Turning score off i c)
    (hhalts : score.program.Halts (fun b => !off && score.repertoire.isInstant b) c.script) :
    ∃ n c', (e.play (List.replicate n (.chain i))).engine.Turning score off i c' ∧
      c'.state ≠ .walking := by
  -- on the way of the script: each turn takes a step of it, or the chain walks no more
  generalize hscript : c.script = ts at hhalts
  induction hhalts generalizing e c with
  | intro ts _ ih =>
    subst hscript
    by_cases hstate : c.state = .walking
    · obtain ⟨scene, rfl, hturn⟩ := h.turn
      have hnext : (c.step score scene).1.state ≠ .walking ∨ _ := c.stops_or_walks hpart hstate
      -- either this very turn lets the chain rest or end, or its script is now one step further on
      -- the way
      rcases hnext with hstop | hwalks
      · exact ⟨1, _, hturn, hstop⟩
      · obtain ⟨n, c', hthere, hstop⟩ := ih _ hwalks hturn rfl
        refine ⟨n + 1, c', ?_, hstop⟩
        rw [play_replicate_succ]
        exact hthere
    -- no turn is needed
    · exact ⟨0, c, h, hstate⟩

/-- **A chain that gives the turn back** comes to the end of its way. This is the converse of
`exists_rest` for a run that is not called off: a step that walks takes exactly one step of the way,
so finitely many turns can only cross a finite one. -/
theorem halts_of_brings (h : e.Turning score false i c) (hstate : c.state = .walking)
    (hbrings : e.Brings i fun c' => c'.state ≠ .walking) :
    score.program.Halts score.repertoire.isInstant c.script := by
  -- on the number of turns: each takes a step of the way, if the way has not ended
  obtain ⟨n, c', hc', hrest⟩ := hbrings
  induction n generalizing e c with
  | zero =>
    -- no turn was needed, so the chain did not walk in the first place
    obtain rfl := Option.some.inj (h.chain?_eq.symm.trans hc')
    exact absurd hstate hrest
  | succ n ih =>
    cases hway : score.program.walk? score.repertoire.isInstant c.script with
    -- the way ends here, and nothing more is to be shown
    | none => exact .of_none hway
    | some ts =>
      obtain ⟨scene, hcalled, hturn⟩ := h.turn
      obtain ⟨hstate', hscript⟩ := c.walks_of_walk? hpart hcalled hstate hway
      rw [play_replicate_succ] at hc'
      have hhalts := ih hturn hstate' hc'
      rw [hscript] at hhalts
      exact .of_some hway hhalts

/-- **A chain that is called off comes to its end.** Its way passes no block, so it rests or ends
after finitely many turns; and a chain that rests notices with its next turn that it is called off.
-/
theorem brings_to_end (h : e.Turning score true i c) : e.Brings i fun c' => c'.ending?.isSome := by
  obtain ⟨n, c', hthere, hstop⟩ := h.exists_rest hpart (score.program.halts_of_none_passed c.script)
  cases hstate : c'.state with
  | walking => exact absurd hstate hstop
  | ended how =>
    exact ⟨n, c', hthere.chain?_eq,
      Option.isSome_iff_exists.mpr ⟨how, Chain.ending?_eq_some.mpr hstate⟩⟩
  | resting rest =>
    -- a chain that rests ends with its next turn
    obtain ⟨scene, hcalled, hturn⟩ := hthere.turn
    refine ⟨n + 1, (c'.step score scene).1, ?_, ?_⟩
    · rw [List.replicate_succ', play_append]
      exact hturn.chain?_eq
    · unfold Chain.step
      rw [hstate]
      simp only [hcalled, if_true]
      rfl

end Turning

/-- **When a chain gives the turn back**, at any point that a run of the language comes to. A chain
of a run that is called off comes to its end. Any other one rests or ends after finitely many steps
if and only if it comes at once to no block that leads back to itself. -/
theorem chain_yields {e : Engine} (hidle : e.guard.held = false)
    (hpart : e.repertoire.IsPartOf .builtin) (p : Project) (clock : Nat)
    (hstarts : p.program.starts ≠ []) (turns : List Turn) {now : Engine}
    (hnow : ((e.start p clock).1.play turns).engine = now) {r : Run} (hrun : now.run? = some r)
    {i : Nat} {c : Chain} (hc : r.chains[i]? = some c) (hmay : r.mayAct i = true) :
    (now.isCalledOff = true → now.Brings i fun c' => c'.ending?.isSome) ∧
      (now.isCalledOff = false →
        ((now.Brings i fun c' => c'.state ≠ .walking) ↔
          ∀ b, c.ComesAtOnce ⟨p.program, e.repertoire, e.interval⟩ b →
            ¬TransGen (p.program.Leads e.repertoire.isInstant) b b)) := by
  let score : Score := ⟨p.program, e.repertoire, e.interval⟩
  have hpart' : score.repertoire.IsPartOf .builtin := hpart
  -- the score is kept through the turns, so the chain's way can be told in the project's own
  -- program
  have hkept : Run.Account fun r _ _ _ _ => r.score = score :=
    ⟨fun i h => (Run.score_step _ _ _ i).trans h, fun h => h⟩
  obtain ⟨r', hperforming, hscore⟩ :=
    (performing_start hidle p clock hstarts).account hkept turns [] [] rfl
  rw [hnow] at hperforming
  obtain rfl : r' = r := Option.some.inj (hperforming.run_eq.symm.trans hrun)
  have hturning : ∀ {off}, now.isCalledOff = off → now.Turning score off i c := fun hoff =>
    ⟨⟨r', hperforming, hscore, hc, hmay⟩, hperforming.isCalledOff_eq.symm.trans hoff⟩
  refine ⟨fun hoff => (hturning hoff).brings_to_end hpart', fun hoff => ⟨?_, fun hacyclic => ?_⟩⟩
  -- a chain that gives the turn back comes to the end of its way, and so to no cycle
  · rintro hbrings b ⟨hstate, ts, hcomes⟩
    have hhalts := (hturning hoff).halts_of_brings hpart' hstate hbrings
    exact Program.halts_iff.mp hhalts b ts hcomes
  -- a chain that walks has a way without a cycle to cross; any other one has given its turn back
  -- already
  · by_cases hstate : c.state = .walking
    · have hhalts : score.program.Halts score.repertoire.isInstant c.script :=
        Program.halts_iff.mpr fun b ts hcomes => hacyclic b ⟨hstate, ts, hcomes⟩
      obtain ⟨n, c', hthere, hrest⟩ := (hturning hoff).exists_rest hpart' hhalts
      exact ⟨n, c', hthere.chain?_eq, hrest⟩
    · exact ⟨0, c, (hturning hoff).chain?_eq, hstate⟩

/-- The first chain of the sample project comes to its first rest, and so it comes at once to no
block that leads back to itself; and where it is called off, it comes to its end. Seven turns are
enough to see the first of these. -/
theorem sample_yields :
    ((Engine.sample .concurrent).start .sample 0).1.Brings 0 (fun c => c.state ≠ .walking) ∧
      (∃ c, ((Engine.sample .concurrent).start .sample 0).1.chain? 0 = some c ∧
        ∀ b, c.ComesAtOnce ⟨Project.sample.program, .builtin, .ofMillis 500⟩ b →
          ¬TransGen (Project.sample.program.Leads Repertoire.builtin.isInstant) b b) ∧
      ((Engine.sample .concurrent).start .sample 0).1.stop.Brings 0 fun c => c.ending?.isSome := by
  have hrest : (((((Engine.sample .concurrent).start .sample 0).1.play
      (List.replicate 7 (.chain 0))).engine.chain? 0).any fun c => c.state ≠ .walking) = true := by
    decide +kernel
  obtain ⟨c', hc', hstop⟩ := (Option.any_eq_true _ _).mp hrest
  have hbrings : ((Engine.sample .concurrent).start .sample 0).1.Brings 0
      fun c => c.state ≠ .walking := ⟨7, c', hc', of_decide_eq_true hstop⟩
  have hstarts : Project.sample.program.starts ≠ [] := by decide +kernel
  -- once for the run as it begins, and once for the same run called off with its first turn
  have hbegun := chain_yields (e := .sample .concurrent) rfl (.refl _) .sample 0 hstarts [] rfl rfl
    (i := 0) rfl rfl
  have hstopped := chain_yields (e := .sample .concurrent) rfl (.refl _) .sample 0 hstarts [.stop]
    rfl rfl (i := 0) rfl rfl
  exact ⟨hbrings, ⟨_, rfl, (hbegun.2 (by decide +kernel)).mp hbrings⟩,
    hstopped.1 (by decide +kernel)⟩

end Engine

/-! ### A chain that never gives the turn back -/

/-- A start block that is its own next block. The decoder has nothing to say against it, and no part
of the engine looks for such a cycle. -/
def Block.spinning : Block := ⟨"s", .start, .empty, [], some "s", []⟩

/-- A project with that block alone. -/
def Project.spinning : Project := ⟨.ofBlocks [.spinning], [], none⟩

/-- The project as a text. -/
def Project.spinningSource : String :=
  "\x7b\"program\":\x7b\"blocks\":[\x7b\"id\":\"s\",\"operationKind\":\"start\",\"next\":\"s\"\x7d]\x7d\x7d"

namespace Engine

/-- An engine that performs that project, after so many operations, with a given script still to do.
All the states of the run have this form, and they differ in these two values alone. -/
def spinning (script : List Task) (operations : Nat) : Engine :=
  { ((Engine.sample .sequential).start .spinning 0).1 with
    run? := some ⟨1, ⟨Project.spinning.program, .builtin, .ofMillis 500⟩, .sequential, operations,
      [⟨none, 0, script, .walking⟩]⟩ }

/-- Three turns carry the block out and lead back to it: one enters it, one finds its body empty,
and one looks up its next block, which is the block itself. -/
theorem play_spinning_thrice (k : Nat) :
    ((spinning [.enter .spinning] k).play (List.replicate 3 (.chain 0))).engine =
      spinning [.enter .spinning] (k + 1) := rfl

/-- However many turns there are, the chain walks, and it has carried the block out once for every
three of them. The induction goes down by three, with the turns inside one round as its base. -/
theorem play_spinning (n k : Nat) :
    ∃ script m, ((spinning [.enter .spinning] k).play (List.replicate n (.chain 0))).engine =
      spinning script m ∧ n + 3 * k ≤ 3 * m := by
  induction n using Nat.strong_induction_on generalizing k with
  | _ n ih =>
    -- one turn for the block, one for its empty body, and one to find it again
    match n with
    | 0 => exact ⟨_, k, rfl, by omega⟩
    | 1 => exact ⟨[.rounds .spinning 0, .visit "s"], k + 1, rfl, by omega⟩
    | 2 => exact ⟨[.visit "s"], k + 1, rfl, by omega⟩
    | n + 3 =>
      obtain ⟨script, m, hthere, hcount⟩ := ih n (by omega) (k + 1)
      refine ⟨script, m, ?_, by omega⟩
      rw [Nat.add_comm n 3, List.replicate_add, play_append]
      dsimp only
      rw [play_spinning_thrice]
      exact hthere

/-- **A chain that never gives the turn back.** The project is one the decoder accepts. However many
turns its chain has, it neither rests nor ends, and it carries out more and more blocks. -/
theorem spinning_never_rests :
    Project.ofJson Project.spinningSource = .ok .spinning ∧
      ∀ n, ∃ r c, (((Engine.sample .sequential).start .spinning 0).1.play
          (List.replicate n (.chain 0))).engine.run? = some r ∧
        r.chains[0]? = some c ∧ c.state = .walking ∧ n ≤ 3 * r.operations := by
  refine ⟨rfl, fun n => ?_⟩
  have hbegun : ((Engine.sample .sequential).start .spinning 0).1 =
      spinning [.enter .spinning] 0 := rfl
  obtain ⟨script, m, hthere, hcount⟩ := play_spinning n 0
  rw [hbegun, hthere]
  exact ⟨_, _, rfl, rfl, rfl, by simpa using hcount⟩

end Engine

end StagePlay
