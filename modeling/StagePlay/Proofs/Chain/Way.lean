import StagePlay.Proofs.Chain.Step
import StagePlay.Proofs.Motion.Ending
import StagePlay.Proofs.Program.Weight

/-!
# The way of a chain

What the steps of a chain make of its script, and for how long. The way through the script is that
of the program (`Program.walk?`), and which block takes time is known from the block alone: in a
part of the language, a block takes no time if its kind is known and stands for a start or a
repetition (`Repertoire.isInstant`), and any other block lets its chain rest (`Lapse.Ordinary`).

* `Chain.Goes` — one step of a walking chain: it goes on along its way, and walks on if the block
  that it passes takes no time, or it has come to the end of its script;
* `Chain.stops_or_walks`, `Chain.walks_of_walk?` — a chain walks on just where its way leads on past
  blocks that take no time; and past none once it is called off;
* `Chain.Subsides` — a chain that comes to its end, whatever the scenes of its steps are;
* `Chain.subsides_of_halts`: a chain subsides if the way of its script comes to an end when every
  block is passed. Each rest comes to an end as well, a pause at once and a motion with its last
  frame.
-/

namespace StagePlay

/-! ### Which blocks take time -/

/-- The operations that take no time. All others rest, if only for as long as a move would take. -/
def Operation.isInstant : Operation → Bool
  | start | repeatCount | repeatForever => true
  | _ => false

/-- **Whether a block takes no time** where a repertoire is known. A kind without a routine takes
time: it is announced, and its chain pauses. -/
def Repertoire.isInstant (r : Repertoire) (b : Block) : Bool :=
  r.contains b.operation.tag && b.named.isInstant

/-- **How the routines of the language let time pass**, for blocks that take no time and for the
others. -/
inductive Lapse.Ordinary : Bool → Lapse → Prop
  | goOn : Ordinary true .goOn
  | pause (d : Duration) : Ordinary false (.pause d)
  | move (m : Motion) : Ordinary false (.animate (.ofMillis Routine.moveTime) m)
  | turn (m : Motion) : Ordinary false (.animate (.ofMillis Routine.turnTime) m)

/-- A glide takes the time of a move, with its owner on the stage and without. -/
theorem Routine.ordinary_glideTo (place : Figure → Point) (cue : Cue) :
    Lapse.Ordinary false (glideTo place cue).lapse := by
  unfold glideTo
  split
  · exact .pause _
  · exact .move _

theorem Routine.ordinary_turn (sign : Float) (cue : Cue) (b : Block) :
    Lapse.Ordinary false (turn sign cue b).lapse := by
  unfold turn
  split
  · exact .pause _
  · exact .turn _

/-- **Every routine of the language lets time pass in an ordinary way.** One case for each operation
that has a routine; those of a family share their routine, and with it the argument. -/
theorem Operation.ordinary_of_routine? {o : Operation} {r : Routine} (h : o.routine? = some r)
    (cue : Cue) (b : Block) : Lapse.Ordinary o.isInstant (r cue b).lapse := by
  cases o <;> simp only [Operation.routine?, Option.some.injEq, reduceCtorEq] at h <;> subst h
  case start | repeatCount | repeatForever => exact .goOn
  case moveUp | moveDown | moveLeft | moveRight | moveSteps | gotoXY =>
    exact Routine.ordinary_glideTo _ cue
  case turnRight | turnLeft => exact Routine.ordinary_turn _ cue b
  case say | think | «show» | hide | wait => exact .pause _

/-- **Which blocks take time**, in a part of the language. -/
theorem Repertoire.IsPartOf.act_ordinary {r : Repertoire} (hr : r.IsPartOf .builtin) (cue : Cue)
    (b : Block) : Lapse.Ordinary (r.isInstant b) (r.act cue b).lapse := by
  unfold act isInstant contains
  cases hfind : r.find? b.operation.tag with
  -- announced, and then a pause
  | none => exact .pause _
  | some routine =>
    -- what a part of the language knows, it knows from the language
    have hbuiltin := hr _ _ hfind
    rw [find?_builtin] at hbuiltin
    exact Operation.ordinary_of_routine? hbuiltin cue b

/-! ### Along the way -/

namespace Chain

/-- **One step of a walking chain.** The way through the script is a function of the program alone
(`Program.walk?`), and the lapse of the block says whether the chain walks on at once. Taking the
two apart separates the question whether a script is endless from the question how long a rest
takes. -/
inductive Goes (score : Score) (c : Chain) : Chain → Prop
  /-- There is nothing left to do. -/
  | finish (hscript : c.script = []) : Goes score c (c.finish .completed)
  /-- A step of the way, with the time that a block takes if one is passed. -/
  | way {ts : List Task} {instant : Bool} {l : Lapse}
      (hway : score.program.walk? (fun _ => true) c.script = some ts)
      (hinstant : score.program.walk? score.repertoire.isInstant c.script =
        if instant then some ts else none)
      (hl : l.Ordinary instant) : Goes score c (c.lapse score.interval ts l)

section

variable {score : Score} {scene : Scene} {c : Chain}

/-- **A walking chain goes along its way**, as long as it is not called off. -/
theorem goes_step (hpart : score.repertoire.IsPartOf .builtin) (hcalled : scene.cancelled = false)
    (hstate : c.state = .walking) : c.Goes score (c.step score scene).1 := by
  -- finding the way in a script takes no time
  have hgoOn : ∀ {ts}, (∀ passes, score.program.walk? passes c.script = some ts) →
      c.Goes score { c with script := ts } := by
    intro ts hway
    have hlapse : ({ c with script := ts } : Chain) = c.lapse score.interval ts .goOn := by
      rw [lapse, hstate]
    have hinstant : score.program.walk? score.repertoire.isInstant c.script =
        if true then some ts else none := hway _
    rw [hlapse]
    exact .way (hway _) hinstant .goOn
  refine c.step_cases hcalled (motive := fun r _ => c.Goes score r.1)
    ?ended ?pause ?frame ?finish ?enter ?dangling ?found ?spent ?round
  -- a walking chain has not ended and does not rest
  case ended => exact fun how h => absurd (hstate.symm.trans h) (by simp)
  case pause => exact fun wake h => absurd (hstate.symm.trans h) (by simp)
  case frame => exact fun start tween k m h => absurd (hstate.symm.trans h) (by simp)
  case finish => exact fun _ hscript => .finish hscript
  case enter =>
    -- the one step that passes a block, with what the block does to the time
    intro b ts _ hscript
    rw [enter_chain]
    refine .way ?_ ?_ (hpart.act_ordinary _ b)
    · rw [hscript]
      exact Program.walk?_enter rfl ts
    · rw [hscript]
      rfl
  case dangling =>
    -- the others go on at once, with the script that the way leads to
    intro id ts _ hscript hid
    refine hgoOn fun passes => ?_
    rw [hscript]
    exact Program.walk?_dangling hid ts
  case found =>
    intro id b ts _ hscript hid
    refine hgoOn fun passes => ?_
    rw [hscript]
    exact Program.walk?_found hid ts
  case spent =>
    intro b ts _ hscript
    refine hgoOn fun passes => ?_
    rw [hscript]
    rfl
  case round =>
    intro b left ts _ hscript
    refine hgoOn fun passes => ?_
    rw [hscript]
    rfl

/-- **A chain that walks on does so along its way**: past blocks that take no time, and past none if
it is called off. So if it never stops walking, the way past such blocks is endless. -/
theorem stops_or_walks (hpart : score.repertoire.IsPartOf .builtin) (hstate : c.state = .walking) :
    (c.step score scene).1.state ≠ .walking ∨
      score.program.walk? (fun b => !scene.cancelled && score.repertoire.isInstant b) c.script =
        some (c.step score scene).1.script := by
  cases hcalled : scene.cancelled with
  | false =>
    generalize hnext : (c.step score scene).1 = next
    have hgoes := c.goes_step hpart hcalled hstate
    rw [hnext] at hgoes
    cases hgoes with
    | finish => exact Or.inl (by simp [Chain.finish])
    | way _ hinstant hl =>
      cases hl with
      -- it walks on just if the block took no time
      | goOn => exact Or.inr hinstant
      | pause | move | turn => exact Or.inl (by simp [lapse])
  | true =>
    -- a chain that is called off still finds its way, but begins no block and no round
    refine c.step_cases_of_cancelled hcalled (motive := fun done => done.1.state ≠ .walking ∨
        score.program.walk? (fun b => !true && score.repertoire.isInstant b) c.script =
          some done.1.script)
      ?ended ?calledOff ?finish ?dangling ?found ?spent
    case ended => exact fun how h => absurd (hstate.symm.trans h) (by simp)
    case calledOff => exact fun _ => .inl (by simp [Chain.finish])
    case finish => exact fun _ _ => .inl (by simp [Chain.finish])
    case dangling =>
      intro id ts _ hscript hid
      rw [hscript]
      exact .inr (Program.walk?_dangling hid ts)
    case found =>
      intro id b ts _ hscript hid
      rw [hscript]
      exact .inr (Program.walk?_found hid ts)
    case spent =>
      intro b ts _ hscript
      rw [hscript]
      exact .inr rfl

/-- **A chain that is not called off walks on** past blocks that take no time. The converse of
`stops_or_walks`: such a block gives no other chain a turn. -/
theorem walks_of_walk? (hpart : score.repertoire.IsPartOf .builtin)
    (hcalled : scene.cancelled = false) (hstate : c.state = .walking) {ts : List Task}
    (h : score.program.walk? score.repertoire.isInstant c.script = some ts) :
    (c.step score scene).1.state = .walking ∧ (c.step score scene).1.script = ts := by
  generalize hnext : (c.step score scene).1 = next
  have hgoes := c.goes_step hpart hcalled hstate
  rw [hnext] at hgoes
  cases hgoes with
  | finish hscript =>
    rw [hscript] at h
    exact absurd h (by simp [Program.walk?])
  | way _ hinstant hl =>
    cases hl with
    | goOn => exact ⟨rfl, Option.some.inj (hinstant.symm.trans h)⟩
    | pause | move | turn => exact absurd (hinstant.symm.trans h) (by simp)

end

/-! ### Coming to an end -/

/-- **A chain that comes to its end**, whatever the scenes of its steps are. Well-foundedness of the
steps says so without a number of steps, which would depend on the scenes. -/
def Subsides (score : Score) : Chain → Prop :=
  Acc fun c' c => c.ending? = none ∧ ∃ scene : Scene, scene.cancelled = false ∧
    (c.step score scene).1 = c'

/-- **A rest that comes to an end**: a pause, or a motion with a last frame before it. The number
`n` of frames before the last one may be any, as long as there is one. -/
inductive RestEnds : Rest → Prop
  | pause (wake : Nat) : RestEnds (.pause wake)
  | frame {tween : Tween} {k : Nat} (n : Nat) (start : Nat) (m : Motion)
      (hlast : tween.isLast (k + n) = true) : RestEnds (.frame start tween k m)

section Subsides

variable {score : Score}

/-- A chain that has ended takes no step that counts. -/
theorem subsides_of_ending {c : Chain} {how : Ending} (h : c.ending? = some how) :
    c.Subsides score :=
  .intro _ fun _ hstep => absurd (h.symm.trans hstep.1) (by simp)

theorem step_of_resting {scene : Scene} {c : Chain} {rest : Rest}
    (hcalled : scene.cancelled = false) (hstate : c.state = .resting rest) :
    c.step score scene = c.resume scene rest := by
  unfold step
  rw [hstate]
  simp only [hcalled, Bool.false_eq_true, if_false]

/-- A chain that walks on after a rest subsides with it, if it subsides from wherever the rest
leaves it (`hts`). -/
theorem subsides_of_resting {ts : List Task}
    (hts : ∀ c : Chain, c.script = ts → c.state = .walking → c.Subsides score) {rest : Rest}
    (hends : RestEnds rest) (c : Chain) (hscript : c.script = ts)
    (hstate : c.state = .resting rest) : c.Subsides score := by
  cases hends with
  | pause wake =>
    -- one step ends a pause
    refine .intro _ ?_
    rintro _ ⟨-, scene, hcalled, rfl⟩
    rw [step_of_resting hcalled hstate]
    exact hts _ hscript rfl
  | @frame tween k n start m hlast =>
    -- on the number of frames before the last one
    induction n generalizing c k with
    | zero =>
      refine .intro _ ?_
      rintro _ ⟨-, scene, hcalled, rfl⟩
      rw [step_of_resting hcalled hstate, resume_frame_chain]
      exact hts _ hscript (if_pos hlast)
    | succ n ih =>
      refine .intro _ ?_
      rintro _ ⟨-, scene, hcalled, rfl⟩
      rw [step_of_resting hcalled hstate, resume_frame_chain]
      by_cases hnow : tween.isLast k = true
      · exact hts _ hscript (if_pos hnow)
      -- any other frame, with one frame less before the last one
      · have hlast' : tween.isLast (k + 1 + n) = true := by rwa [Nat.add_right_comm, Nat.add_assoc]
        exact ih _ hscript hlast' (if_neg hnow)

/-- **A chain subsides** if the way of its script comes to an end. The induction is on the way: a
step of a walking chain is a step of the way, and a rest that it may begin comes to an end by
itself, after which the chain walks on at the next place of the way. -/
theorem subsides_of_halts (hpart : score.repertoire.IsPartOf .builtin) {ts : List Task}
    (h : score.program.Halts (fun _ => true) ts) (c : Chain) (hscript : c.script = ts)
    (hstate : c.state = .walking) : c.Subsides score := by
  induction h generalizing c with
  | intro ts _ ih =>
    subst hscript
    refine .intro _ ?_
    rintro _ ⟨-, scene, hcalled, rfl⟩
    -- a step of the way, and a rest that ends if the block took time
    generalize hnext : (c.step score scene).1 = next
    have hgoes := c.goes_step hpart hcalled hstate
    rw [hnext] at hgoes
    cases hgoes with
    | finish => exact subsides_of_ending rfl
    | @way ts' _ l hway _ hl =>
      have hon : ∀ c : Chain, c.script = ts' → c.state = .walking → c.Subsides score :=
        fun c hscript hstate => ih ts' hway c hscript hstate
      cases hl with
      -- walking on, or resting first and walking on then
      | goOn => exact hon _ rfl rfl
      | pause d => exact subsides_of_resting hon (.pause _) _ rfl rfl
      | move m =>
        obtain ⟨k, hlast⟩ := Tween.ends_move score.interval
        exact subsides_of_resting hon (.frame k _ _ (by rwa [Nat.zero_add])) _ rfl rfl
      | turn m =>
        obtain ⟨k, hlast⟩ := Tween.ends_turn score.interval
        exact subsides_of_resting hon (.frame k _ _ (by rwa [Nat.zero_add])) _ rfl rfl

end Subsides

end Chain

end StagePlay
