import StagePlay.Proofs.Motion.Progress
import StagePlay.Proofs.Motion.Way
import StagePlay.Proofs.Routine.Effect

/-!
# Numbers in bounds

However many moves of the language are carried out, no place is ever too far away for a float. Steps
end at the border of the stage and the grid lies within it; a nudge goes on, but beyond `2 ^ 59` it is
lost in rounding. Nothing of this kind bounds a heading: a turn adds degrees of any size. So it is only
for turns by degrees that are not beyond `2 ^ 968`, which are lost in rounding where headings come near
the largest floats, that headings stay in bounds.

* `Point.InBounds`, `Figure.InBounds`, `Stage.InBounds` — numbers in bounds. The heading is there only
  where all is `calm`, a proposition that says so of the turns.
* `Motion.InBounds.change` — whatever progress a motion shows, it shows numbers in bounds.
* `Repertoire.IsPartOf.inBounds` — what a block of the language does keeps in bounds, at once and by
  the motion that follows.
-/

namespace StagePlay

/-! ### Floats -/

namespace Number

/-- A number that lies in some bounds lies in all wider ones. -/
theorem Within.mono {k l : ℤ} {x : Float} (h : Within k x) (hkl : k ≤ l) : Within l x :=
  ⟨h.finite, h.bound.trans (zpow_le_zpow_right₀ one_le_two hkl)⟩

/-- **A number between two finite ones is finite.** The comparisons are those of the floats, which
hold of no number that is not one, so that case is excluded by a hypothesis of its own; an infinity
lies outside of one of the two ends. -/
theorem isFinite_of_between {low high x : Float} (hlow : isFinite low = true)
    (hhigh : isFinite high = true) (hx : x.isNaN = false) (hlow' : ¬x < low) (hhigh' : ¬high < x) :
    isFinite x = true := by
  rw [lt_iff_unpack] at hlow' hhigh'
  have hx' : x.toModel.unpack.isNaN = false := hx
  have hlow := canonical_unpack hlow
  have hhigh := canonical_unpack hhigh
  show x.toModel.unpack.isFinite = true
  -- an infinity is beyond one of the two bounds
  generalize low.toModel.unpack = l at hlow hlow'
  generalize high.toModel.unpack = h at hhigh hhigh'
  cases hunpack : x.toModel.unpack with
  | notANumber =>
    rw [hunpack] at hx'
    exact nomatch hx'
  | infinity s =>
    rw [hunpack] at hlow' hhigh'
    cases s with
    | positive => cases hhigh <;> exact absurd rfl hhigh'
    | negative => cases hlow <;> exact absurd rfl hlow'
  -- zero and the other finite numbers are finite whatever the two bounds are
  | zero s => rfl
  | finite s m e hm => rfl

/-- **A number that is clamped** lies in any bounds that both ends lie in: it is one of the two
ends, or else a number between them, and hence finite and no larger in size than the larger of the
two. -/
theorem within_clamp {k : ℤ} {low high x : Float} (hlow : Within k low) (hhigh : Within k high)
    (hx : x.isNaN = false) : Within k (clamp low high x) := by
  unfold clamp
  split
  · exact hlow
  next hge =>
  split
  · exact hhigh
  next hle =>
  have hfinite := isFinite_of_between hlow.finite hhigh.finite hx hge hle
  refine ⟨hfinite, abs_le.mpr ⟨?_, ?_⟩⟩
  -- neither comparison with an end holds of the floats, so neither holds of their values
  · rw [lt_iff_value hfinite hlow.finite, not_lt] at hge
    exact (abs_le.mp hlow.bound).1.trans hge
  · rw [lt_iff_value hhigh.finite hfinite, not_lt] at hle
    exact hle.trans (abs_le.mp hhigh.bound).2

/-- **A small whole number** is a float as it stands, without any rounding, and so it lies in every
bounds in which the number itself lies. -/
theorem within_ofInt {k : ℤ} {i : ℤ} (hi : |i| < 2 ^ 53) (hk : |(i : ℚ)| ≤ 2 ^ k) :
    Within k (Float.ofInt i) := by
  have hrounds := rounds_ofInt hi
  refine ⟨hrounds.finite, ?_⟩
  rw [hrounds.nearest.eq (representable_intCast hi)]
  exact hk

end Number

open Number Routine

/-! ### Figures and what changes them -/

/-- **A place in bounds.** Its distance from the middle of the stage is at most `2 ^ 59` on each
axis, from where a nudge goes no further: the step that it takes is lost in rounding. -/
structure Point.InBounds (p : Point) : Prop where
  x : Within 59 p.x
  y : Within 59 p.y

/-- **A figure in bounds.** Its place is, and its scale is a finite number. As for its heading,
nothing is said of it unless all is calm, since a turn by very many degrees takes it out of any
bounds. -/
structure Figure.InBounds (calm : Prop) (f : Figure) : Prop where
  position : f.position.InBounds
  heading : calm → Within 1022 f.heading
  scale : isFinite f.scale = true

/-- **A stage in bounds**, with all the figures on it, whether or not a chain owns them. -/
def Stage.InBounds (calm : Prop) (s : Stage) : Prop := ∀ f ∈ s.figures, f.InBounds calm

/-- **A change to values in bounds**, as far as it names any. No operation of the language changes
the scale of a figure, and none of the changes here does. -/
structure Change.InBounds (calm : Prop) (c : Change) : Prop where
  position : ∀ p ∈ c.position, p.InBounds
  heading : calm → ∀ h ∈ c.heading, Within 1022 h
  scale : c.scale = none

/-- A change that names neither place nor heading nor scale has nothing that could be out of bounds.
This is so of what is said, and of what is shown or hidden. -/
theorem Change.InBounds.of_none {calm : Prop} {c : Change} (hposition : c.position = none)
    (hheading : c.heading = none) (hscale : c.scale = none) : c.InBounds calm where
  position p hp := by
    rw [hposition] at hp
    exact absurd hp (Option.not_mem_none p)
  heading _ h hh := by
    rw [hheading] at hh
    exact absurd hh (Option.not_mem_none h)
  scale := hscale

/-- **A motion in bounds**, from its start to its goal. What it shows on the way lies between the
two, up to rounding, and the bounds have room for that. Nothing in the language grows. -/
def Motion.InBounds (calm : Prop) : Motion → Prop
  | .glide start goal => start.InBounds ∧ goal.InBounds
  | .turn start goal => calm → Within 1022 start ∧ Within 1022 goal
  | .grow _ _ => False

/-- **A block that is calm**: if it names degrees, they are not beyond `2 ^ 968`. So much is lost in
rounding beside a heading that is near the largest floats. -/
def Block.Calm (b : Block) : Prop := ∀ d ∈ b.number? "degrees", Within 968 d

theorem within_zero {k : ℤ} : Within k 0.0 where
  finite := isFinite_zero
  bound := by
    rw [value_zero, abs_zero]
    exact (two_zpow_pos k).le

section Keep

variable {calm calm' : Prop} {f : Figure} {s : Stage} {c : Change}

theorem Figure.InBounds.mono (h : f.InBounds calm) (hcalm : calm' → calm) : f.InBounds calm' :=
  ⟨h.position, h.heading ∘ hcalm, h.scale⟩

theorem Stage.InBounds.mono (h : s.InBounds calm) (hcalm : calm' → calm) : s.InBounds calm' :=
  fun f hf => (h f hf).mono hcalm

theorem Motion.InBounds.mono {m : Motion} (h : m.InBounds calm) (hcalm : calm' → calm) :
    m.InBounds calm' := by
  cases m with
  | glide => exact h
  | turn => exact h ∘ hcalm
  | grow => exact h

/-- The stage as it is set: every figure stands in the middle, heads nowhere and has the scale one.
-/
theorem Stage.inBounds_set (actors : List Actor) (backdrop : Option Backdrop) :
    (set actors backdrop).InBounds calm := by
  intro f hf
  obtain ⟨a, -, rfl⟩ := List.mem_map.mp hf
  exact ⟨⟨within_zero, within_zero⟩, fun _ => within_zero, isFinite_one⟩

/-- A figure in bounds stays in bounds under a change to values in bounds. -/
theorem Figure.InBounds.apply (hf : f.InBounds calm) (hc : c.InBounds calm) :
    (f.apply c).InBounds calm where
  -- a field is either named by the change, or it stays what it was
  position := by
    show (c.position.getD f.position).InBounds
    cases hposition : c.position with
    | none => exact hf.position
    | some p => exact hc.position p hposition
  heading hcalm := by
    show Within 1022 (c.heading.getD f.heading)
    cases hheading : c.heading with
    | none => exact hf.heading hcalm
    | some h => exact hc.heading hcalm h hheading
  scale := by
    show isFinite (c.scale.getD f.scale) = true
    rw [hc.scale]
    exact hf.scale

/-- **A change keeps a stage in bounds.** The first figure of the id is changed to values in bounds,
and all the others are left as they are. -/
theorem Stage.InBounds.change? (hs : s.InBounds calm) (hc : c.InBounds calm) {id : String}
    {s' : Stage} (h : s.change? id c = some s') : s'.InBounds calm := by
  have hfigures : ∀ fs : List Figure, (∀ f ∈ fs, f.InBounds calm) →
      ∀ f ∈ alterFirst id (·.apply c) fs, f.InBounds calm := by
    intro fs
    -- the figures are gone through up to the first one of the id
    induction fs with
    | nil => exact fun hfs => hfs
    | cons g fs ih =>
      intro hfs
      obtain ⟨hg, hfs⟩ := List.forall_mem_cons.mp hfs
      unfold alterFirst
      split
      · exact List.forall_mem_cons.mpr ⟨hg.apply hc, hfs⟩
      · exact List.forall_mem_cons.mpr ⟨hg, ih hfs⟩
  rw [change?_eq] at h
  split at h
  · obtain rfl := Option.some.inj h
    exact hfigures s.figures hs
  · cases h

/-- **A motion in bounds shows changes in bounds**, whatever its progress is, be it beyond the end.
The shown number is rounded several times on its way, and yet never leaves the bounds of the two
ends (`Within.lerp`). -/
theorem Motion.InBounds.change {m : Motion} (h : m.InBounds calm) {t : Float}
    (ht : isFinite t = true) (ht' : 0 ≤ value t) : (m.change t).InBounds calm := by
  cases m with
  | glide start goal =>
    -- each axis of a glide is a motion from number to number
    obtain ⟨hstart, hgoal⟩ := h
    refine ⟨?_, nofun, rfl⟩
    rintro p ⟨⟩
    exact ⟨hstart.x.lerp hgoal.x (by decide) (by decide) ht ht',
      hstart.y.lerp hgoal.y (by decide) (by decide) ht ht'⟩
  | turn start goal =>
    refine ⟨nofun, ?_, rfl⟩
    rintro hcalm x ⟨⟩
    obtain ⟨hstart, hgoal⟩ := h hcalm
    exact hstart.lerp hgoal (by decide) (by decide) ht ht'
  | grow => exact h.elim

end Keep

/-! ### Acts -/

/-- **An act in bounds**: what it does at once, and the motion that follows. That the motion is a
short one, of a whole number of milliseconds, is what keeps its progress a finite number. -/
structure Act.InBounds (calm : Prop) (a : Act) : Prop where
  /-- The changes that are made at once are to values in bounds. -/
  effects : ∀ c, .change c ∈ a.effects → c.InBounds calm
  /-- A motion that follows goes from bounds to bounds, and takes no longer than a move. -/
  motion : ∀ d m, a.lapse = .animate d m →
    m.InBounds calm ∧ ∃ n, 0 < n ∧ n ≤ moveTime ∧ d = .ofMillis n

section Acts

variable {calm : Prop} {cue : Cue} (hcue : ∀ f, cue.figure? = some f → f.InBounds calm)

namespace Routine

/-- An act that changes nothing and then pauses. Routines act in this way where the figure of the
owner is not on the stage. -/
theorem inBounds_pause {effects : List Effect} (heffects : ∀ c, .change c ∉ effects)
    (d : Duration) : (Act.mk effects (.pause d)).InBounds calm :=
  ⟨fun c hc => absurd hc (heffects c), nofun⟩

/-- An act that makes a change in bounds and leaves it to be seen for a while. -/
theorem inBounds_showFor {c : Change} (hc : c.InBounds calm) (ms : Nat) :
    (Act.showFor c ms).InBounds calm where
  effects c' hc' := by
    obtain rfl := Effect.change.inj (List.mem_singleton.mp hc')
    exact hc
  motion := nofun

include hcue in
/-- **A glide** to a place in bounds. It begins where the figure stands, which is in bounds by what
is assumed of the stage; so all that is left to be shown of a routine that glides is where it goes.
-/
theorem inBounds_glideTo {place : Figure → Point}
    (hplace : ∀ f, f.InBounds calm → (place f).InBounds) : (glideTo place cue).InBounds calm := by
  unfold glideTo
  split
  -- there is no figure that could glide
  · exact inBounds_pause (fun _ => List.not_mem_nil) _
  next f hf =>
  refine ⟨fun c hc => absurd hc List.not_mem_nil, ?_⟩
  rintro d m ⟨⟩
  exact ⟨⟨(hcue f hf).position, hplace f (hcue f hf)⟩, moveTime, by decide, le_rfl, rfl⟩

include hcue in
/-- **A nudge** by a distance that is small against the bound. The sum is rounded, and no sum of a
number up to `2 ^ 59` and one below `2 ^ 6` is rounded beyond `2 ^ 59`. -/
theorem inBounds_nudge {dx dy : Float} (hdx : isFinite dx = true ∧ |value dx| < 64)
    (hdy : isFinite dy = true ∧ |value dy| < 64) (b : Block) : (nudge dx dy cue b).InBounds calm := by
  have hsmall : (64 : ℚ) = 2 ^ ((59 : ℤ) - 53) := by norm_num
  rw [hsmall] at hdx hdy
  exact inBounds_glideTo hcue fun f hf =>
    ⟨hf.position.x.add (by decide) (by decide) hdx.1 hdx.2,
      hf.position.y.add (by decide) (by decide) hdy.1 hdy.2⟩

/-- The border of the stage, on both sides, lies in bounds. -/
theorem within_stageLimit : Within 59 (-stageLimit) ∧ Within 59 stageLimit := by
  have hlow : value (-stageLimit) = -150 := by
    show unpackedValue (.finite .negative (150 * 2 ^ 45) (-45) (by decide)) = _
    rw [unpackedValue_negative]
    norm_num
  have hhigh : value stageLimit = 150 := by
    show unpackedValue (.finite .positive (150 * 2 ^ 45) (-45) (by decide)) = _
    rw [unpackedValue_positive]
    norm_num
  refine ⟨⟨rfl, ?_⟩, ⟨rfl, ?_⟩⟩
  · rw [hlow]
    norm_num
  · rw [hhigh]
    norm_num

/-- **One axis of a step** ends at the border of the stage, or before it, or where it began: an
offset that leads to no number at all is not taken. -/
theorem within_stepAxis {start : Float} (hstart : Within 59 start) (offset : Float) :
    Within 59 (stepAxis start offset) := by
  unfold stepAxis
  dsimp only
  split
  -- the sum is not a number
  · exact hstart
  · next hnan =>
    exact within_clamp within_stageLimit.1 within_stageLimit.2 (Bool.eq_false_iff.mpr hnan)

/-- **The grid lies on the stage**: its cells are counted up to fifteen on either side, and lie ten
apart. -/
theorem within_grid (v : Float) : Within 59 (grid v) := by
  have hcell : |gridScale * gridCell v| ≤ 150 := by
    unfold gridScale gridCell gridLimit
    rw [abs_le]
    omega
  refine within_ofInt (hcell.trans_lt (by norm_num)) ?_
  have hcell' : |((gridScale * gridCell v : ℤ) : ℚ)| ≤ 150 := by exact_mod_cast hcell
  exact hcell'.trans (by norm_num)

include hcue in
/-- **A turn** by degrees that are small against the bound, either way. Whether they are the degrees
of the block or the ones by default, they are at most `2 ^ 968`, and a heading of at most `2 ^ 1022`
takes them up without leaving its bounds. -/
theorem inBounds_turn {sign : Float} (hsign : isFinite sign = true) (hsign' : |value sign| = 1)
    {b : Block} (hb : calm → b.Calm) : (turn sign cue b).InBounds calm := by
  unfold turn
  split
  -- there is no figure that could turn
  · exact inBounds_pause (fun _ => List.not_mem_nil) _
  next f hf =>
  refine ⟨fun c hc => absurd hc List.not_mem_nil, ?_⟩
  rintro d m ⟨⟩
  refine ⟨fun hcalm => ⟨(hcue f hf).heading hcalm, ?_⟩, turnTime, by decide, by decide, rfl⟩
  -- what a turn adds is so small that the sum is rounded to the bound at most
  have hdegrees : Within 968 ((b.number? "degrees").getD defaultDegrees) := by
    -- a block without usable degrees turns by the ones by default
    cases hnumber : b.number? "degrees" with
    | some x => exact hb hcalm x hnumber
    | none =>
      have hdefault : value defaultDegrees = 15 := by
        show unpackedValue (.finite .positive (15 * 2 ^ 49) (-49) (by decide)) = _
        rw [unpackedValue_positive]
        norm_num
      refine ⟨rfl, ?_⟩
      rw [Option.getD_none, hdefault, abs_of_pos (by norm_num)]
      have hfour : (15 : ℚ) ≤ 2 ^ (4 : ℤ) := by norm_num
      exact hfour.trans (zpow_le_zpow_right₀ one_le_two (by decide))
  have hproduct : |value sign * value ((b.number? "degrees").getD defaultDegrees)| ≤
      2 ^ (968 : ℤ) := by
    rw [abs_mul, hsign', one_mul]
    exact hdegrees.bound
  have hrounds := rounds_mul hsign hdegrees.finite
    (hproduct.trans (zpow_le_zpow_right₀ one_le_two (by decide)))
  have hbound := hrounds.nearest.within (representable_two_zpow (by decide)) hproduct
  exact ((hcue f hf).heading hcalm).add (by decide) (by decide) hrounds.finite
    (hbound.trans_lt (zpow_lt_zpow_right₀ one_lt_two (by decide)))

end Routine

/-- How far a nudge goes, either way, is small against the bounds of a place. -/
theorem small_nudgeDistance : (isFinite nudgeDistance = true ∧ |value nudgeDistance| < 64) ∧
    (isFinite (-nudgeDistance) = true ∧ |value (-nudgeDistance)| < 64) := by
  have hforth : value nudgeDistance = 50 := by
    show unpackedValue (.finite .positive (50 * 2 ^ 47) (-47) (by decide)) = _
    rw [unpackedValue_positive]
    norm_num
  have hback : value (-nudgeDistance) = -50 := by
    show unpackedValue (.finite .negative (50 * 2 ^ 47) (-47) (by decide)) = _
    rw [unpackedValue_negative]
    norm_num
  rw [hforth, hback]
  exact ⟨⟨rfl, by norm_num⟩, ⟨rfl, by norm_num⟩⟩

include hcue in
/-- **The routines of the language keep in bounds.** One case for each operation: the nudges and the
two moves to a place are glides, the turns need the block to be calm, and all the others name
nothing that has bounds. -/
theorem Operation.inBounds_of_routine? {o : Operation} {r : Routine} (h : o.routine? = some r)
    {b : Block} (hb : calm → b.Calm) : (r cue b).InBounds calm := by
  obtain ⟨hforth, hback⟩ := small_nudgeDistance
  have hstill : isFinite 0.0 = true ∧ |value 0.0| < 64 := ⟨rfl, by rw [value_zero]; norm_num⟩
  -- an operation of one's own has no routine, and drops out
  cases o <;> simp only [Operation.routine?, Option.some.injEq, reduceCtorEq] at h <;> subst h
  case moveUp => exact inBounds_nudge hcue hstill hforth b
  case moveDown => exact inBounds_nudge hcue hstill hback b
  case moveLeft => exact inBounds_nudge hcue hback hstill b
  case moveRight => exact inBounds_nudge hcue hforth hstill b
  case moveSteps =>
    exact inBounds_glideTo hcue fun f hf =>
      ⟨within_stepAxis hf.position.x _, within_stepAxis hf.position.y _⟩
  case gotoXY => exact inBounds_glideTo hcue fun _ _ => ⟨within_grid _, within_grid _⟩
  case turnRight => exact inBounds_turn hcue rfl (by rw [value_one, abs_one]) hb
  case turnLeft =>
    have hvalue : value (-1.0) = -1 := by
      show unpackedValue (.finite .negative (2 ^ 52) (-52) (by decide)) = _
      rw [unpackedValue_negative]
      norm_num
    exact inBounds_turn hcue rfl (by rw [hvalue, abs_neg, abs_one]) hb
  -- from here on nothing is done to place or heading
  case say | think => exact inBounds_showFor (.of_none rfl rfl rfl) speechTime
  case «show» | hide => exact inBounds_showFor (.of_none rfl rfl rfl) visibilityTime
  case wait => exact inBounds_pause (fun _ => List.not_mem_nil) _
  case start | repeatCount | repeatForever =>
    exact ⟨fun c hc => absurd hc List.not_mem_nil, by rintro d m ⟨⟩⟩

include hcue in
/-- **A block keeps in bounds** where a part of the language is known. A kind that is not known is
announced and nothing else; one that is known has the routine that the language gives it. -/
theorem Repertoire.IsPartOf.inBounds {r : Repertoire} (hr : r.IsPartOf builtin) {b : Block}
    (hb : calm → b.Calm) : (r.act cue b).InBounds calm := by
  unfold act
  cases hfind : r.find? b.operation.tag with
  | none => exact inBounds_pause (fun c hc => absurd (List.mem_singleton.mp hc) (by simp)) _
  | some routine =>
    have hbuiltin := hr _ _ hfind
    rw [find?_builtin] at hbuiltin
    exact Operation.inBounds_of_routine? hcue hbuiltin hb

end Acts

end StagePlay
