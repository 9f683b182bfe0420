import StagePlay.Proofs.Engine.Turns
import StagePlay.Proofs.Routine.Field

/-!
# The frames of a run

A run first shows the stage as it is set. From then on every frame differs from the one before it in
one figure at most, the first one of the owner of the chain that shows it, and there only in the field
of the operation that this chain carries out.

* A `Shot` is a frame with the deed that it belongs to, the last one of the chain that shows it.
  `Engine.film` is all the shots of a run.
* `Repertoire.Film` says of a stage, some shots and another stage that each shot is such a difference
  to the frame before it.
* `Chain.Shows` is what a chain keeps for this: if it is in a motion, then its last deed began it.
  `Chain.step_films` is the one step, `Run.Framing` the invariant of a run.
* `Engine.frames_disciplined` is all of it, for any turns, also those of a run that is called off.
-/

namespace StagePlay

/-- The frames among some signals, in the order in which they are shown. -/
def frames (signals : List Signal) : List Stage :=
  signals.filterMap fun
    | .frame s => some s
    | _ => none

@[simp] theorem frames_nil : frames [] = [] := rfl

@[simp] theorem frames_append (l l' : List Signal) : frames (l ++ l') = frames l ++ frames l' :=
  List.filterMap_append

/-- **A frame with the deed that it belongs to**: the block that its chain carried out last, and for
whom. -/
structure Shot where
  deed : Deed
  stage : Stage

/-- Some frames with the deed that they belong to, if there is one. -/
def shotsOf (d? : Option Deed) (fs : List Stage) : List Shot :=
  match d? with
  | none => []
  | some d => fs.map fun s => ⟨d, s⟩

@[simp] theorem shotsOf_nil (d? : Option Deed) : shotsOf d? [] = [] := by cases d? <;> rfl

theorem shotsOf_append (d? : Option Deed) (fs fs' : List Stage) :
    shotsOf d? (fs ++ fs') = shotsOf d? fs ++ shotsOf d? fs' := by
  cases d? with
  | none => rfl
  | some d => exact List.map_append

/-- The last of some deeds that a chain did. A chain that moves a figure shows frames long after the
deed that began the motion, but it does nothing else in between. -/
def lastDeed? (deeds : List Deed) (i : Nat) : Option Deed :=
  (deeds.filter fun d => d.chain = i).getLast?

/-- What the chain has just done is its last deed, and if it did nothing, it is the one before. -/
theorem lastDeed?_append_self (deeds : List Deed) {i : Nat} {d? : Option Deed}
    (hd : ∀ d ∈ d?, d.chain = i) : lastDeed? (deeds ++ d?.toList) i = d?.or (lastDeed? deeds i) := by
  cases d? with
  | none => simp
  | some d => simp [lastDeed?, hd d rfl]

/-- What one chain does is no deed of another one. -/
theorem lastDeed?_append_of_ne (deeds : List Deed) {i j : Nat} {d? : Option Deed}
    (hd : ∀ d ∈ d?, d.chain = i) (hij : i ≠ j) :
    lastDeed? (deeds ++ d?.toList) j = lastDeed? deeds j := by
  cases d? with
  | none => simp
  | some d => simp [lastDeed?, hd d rfl, hij]

/-! ### Films -/

/-- **From a stage on, shot by shot, to another one**: each shot differs from the frame before it at
the owner of its deed, in the field of the block of its deed. A shot may also be equal to the frame
before it, as when a figure is moved to where it is. -/
inductive Repertoire.Film (rep : Repertoire) : Stage → List Shot → Stage → Prop where
  | nil {s : Stage} : rep.Film s [] s
  | cons {s s' : Stage} {shot : Shot} {shots : List Shot} {field : Field}
      (hfield : rep.field? shot.deed.block = some field)
      (hdiffers : s.DiffersAt shot.deed.owner field shot.stage)
      (hrest : rep.Film shot.stage shots s') : rep.Film s (shot :: shots) s'

section Film

variable {rep : Repertoire} {s s' s'' : Stage} {shots shots' : List Shot}

/-- A film that goes on where another one ends. So the films of single steps make up that of a run.
-/
theorem Repertoire.Film.append (h : rep.Film s shots s') (h' : rep.Film s' shots' s'') :
    rep.Film s (shots ++ shots') s'' := by
  induction h with
  | nil => exact h'
  | cons hfield hdiffers _ ih => exact .cons hfield hdiffers (ih h')

/-- A block without a field of its own is not seen in any shot. -/
theorem Repertoire.Film.field?_isSome (h : rep.Film s shots s') {shot : Shot}
    (hshot : shot ∈ shots) : (rep.field? shot.deed.block).isSome := by
  induction h with
  | nil => exact nomatch hshot
  | cons hfield _ _ ih =>
    rcases List.mem_cons.mp hshot with rfl | hshot
    · rw [hfield]
      rfl
    · exact ih hshot

/-- **What every shot retains** of the stage at the beginning: all but the fields of the first
figures of those who own a deed. The induction goes along the film, each shot retaining what the one
before it does. -/
theorem Repertoire.Film.retains {s₀ : Stage} {owners : String → Prop} (h : rep.Film s shots s')
    (hbegin : s₀.Retains owners s)
    (howners : ∀ shot ∈ shots, ∀ id, shot.deed.owner = some id → owners id) :
    ∀ shot ∈ shots, s₀.Retains owners shot.stage := by
  induction h with
  | nil => exact fun _ hshot => nomatch hshot
  | @cons s s' first shots field _ hdiffers _ ih =>
    have hfirst := hbegin.trans_differsAt hdiffers (howners first List.mem_cons_self)
    intro shot hshot
    rcases List.mem_cons.mp hshot with rfl | hshot
    · exact hfirst
    · exact ih hfirst (fun shot hmem => howners shot (List.mem_cons_of_mem _ hmem)) shot hshot

end Film

/-! ### What is shown at once -/

namespace Scene

variable {rep : Repertoire} {d : Deed}

theorem change_films (s : Scene) {c : Change} {field : Field}
    (hfield : rep.field? d.block = some field) (hc : c.StaysIn field) :
    rep.Film s.stage (shotsOf (some d) (frames (s.change d.owner c).2))
      (s.change d.owner c).1.stage := by
  unfold change
  cases howner : d.owner with
  -- without an owner, or with one who is not on the stage, nothing is shown
  | none => exact .nil
  | some id =>
    rw [Option.bind_some]
    cases hchange : s.stage.change? id c with
    | none => exact .nil
    | some stage =>
      refine .cons hfield ?_ .nil
      rw [howner]
      exact Stage.differsAt_of_change? hchange hc

/-- **What is done at once for a block is seen in its field.** -/
theorem performAll_films (b : Block) (es : List Effect) (s : Scene)
    (hes : ∀ c, .change c ∈ es → ∃ field, rep.field? d.block = some field ∧ c.StaysIn field) :
    rep.Film s.stage (shotsOf (some d) (frames (s.performAll d.owner b es).2))
      (s.performAll d.owner b es).1.stage := by
  induction es generalizing s with
  | nil => exact .nil
  | cons e es ih =>
    have hrest := ih (s.perform d.owner b e).1 fun c hc => hes c (List.mem_cons_of_mem e hc)
    have hfirst : rep.Film s.stage (shotsOf (some d) (frames (s.perform d.owner b e).2))
        (s.perform d.owner b e).1.stage := by
      -- of the effects, only a change is seen
      cases e with
      | change c =>
        obtain ⟨field, hfield, hc⟩ := hes c List.mem_cons_self
        exact s.change_films hfield hc
      | announce kind => exact .nil
      | note => exact .nil
    have hwhole := hfirst.append hrest
    rw [show s.performAll d.owner b (e :: es) = (((s.perform d.owner b e).1.performAll d.owner b es).1,
      (s.perform d.owner b e).2 ++ ((s.perform d.owner b e).1.performAll d.owner b es).2) from rfl,
      frames_append, shotsOf_append]
    exact hwhole

end Scene

/-! ### Chains -/

namespace Chain

/-- **A chain with its last deed**: if it is in a motion, then this deed began it, and whatever the
progress, the motion stays in the field of its block. -/
def Shows (rep : Repertoire) (d? : Option Deed) (c : Chain) : Prop :=
  ∀ start tween k m, c.state = .resting (.frame start tween k m) →
    ∃ d field, d? = some d ∧ d.owner = c.owner ∧ rep.field? d.block = some field ∧
      ∀ t, (m.change t).StaysIn field

theorem shows_of_unclocked_eq {rep : Repertoire} {d? : Option Deed} {c c' : Chain}
    (h : c'.unclocked = c.unclocked) (hc : c.Shows rep d?) : c'.Shows rep d? := by
  change c'.unclocked.Shows rep d?
  rw [h]
  exact hc

theorem shows_of_not_resting {rep : Repertoire} {d? : Option Deed} {c : Chain}
    (hc : ∀ rest, c.state ≠ .resting rest) : c.Shows rep d? :=
  fun _ _ _ _ hstate => absurd hstate (hc _)

/-- A chain that is called off rests no more: it is ended, or walks on through its script without a
block. -/
theorem chain_step_of_cancelled {score : Score} {scene : Scene} (hcalled : scene.cancelled = true)
    (c : Chain) :
    (c.step score scene).1.owner = c.owner ∧
      ∀ rest, (c.step score scene).1.state ≠ .resting rest := by
  refine c.step_cases_of_cancelled hcalled
    (motive := fun done => done.1.owner = c.owner ∧ ∀ rest, done.1.state ≠ .resting rest)
    ?ended ?calledOff ?finish ?dangling ?found ?spent
  case ended => exact fun how hstate => ⟨rfl, fun rest h => nomatch hstate.symm.trans h⟩
  case calledOff => exact fun _ => ⟨rfl, nofun⟩
  case finish => exact fun _ _ => ⟨rfl, nofun⟩
  case dangling => exact fun _ _ hstate _ _ => ⟨rfl, fun rest h => nomatch hstate.symm.trans h⟩
  case found => exact fun _ _ _ hstate _ _ => ⟨rfl, fun rest h => nomatch hstate.symm.trans h⟩
  case spent => exact fun _ _ hstate _ => ⟨rfl, fun rest h => nomatch hstate.symm.trans h⟩

/-- A chain stays with its owner, called off or not. -/
theorem owner_after_step {score : Score} {scene : Scene} (c : Chain) :
    (c.step score scene).1.owner = c.owner := by
  cases hcalled : scene.cancelled with
  | true => exact (c.chain_step_of_cancelled hcalled).1
  | false => exact c.owner_step hcalled

/-- **What a step of a chain shows**, with the last deed of the chain by then, and what the chain is
left with. That every frame of the step is among the shots is a clause of its own (`frames_eq`), as
a chain without any deed has no shots. -/
structure Filmed (rep : Repertoire) (scene : Scene) (d? : Option Deed)
    (done : Chain × Scene × List Signal) : Prop where
  shows : done.1.Shows rep d?
  film : rep.Film scene.stage (shotsOf d? (frames done.2.2)) done.2.1.stage
  frames_eq : (shotsOf d? (frames done.2.2)).map Shot.stage = frames done.2.2

section Step

variable {score : Score} {scene : Scene} {c : Chain} {d? : Option Deed}

/-- A step that shows nothing. -/
theorem Filmed.still {rep : Repertoire} {c' : Chain} (hc' : c'.Shows rep d?) :
    Filmed rep scene d? (c', scene, []) := by
  refine ⟨hc', ?_, ?_⟩
  · rw [frames_nil, shotsOf_nil]
    exact .nil
  · rw [frames_nil, shotsOf_nil]
    rfl

/-- A frame of a motion. -/
theorem Filmed.frame (hc : c.Shows score.repertoire d?) {start : Nat} {tween : Tween} {k : Nat}
    {m : Motion} (hstate : c.state = .resting (.frame start tween k m)) :
    Filmed score.repertoire scene d? (c.resume scene (.frame start tween k m)) := by
  obtain ⟨d, field, rfl, howner, hfield, hm⟩ := hc start tween k m hstate
  -- the chain after the frame, what the frame shows, and that it is the only one
  refine ⟨?_, ?_, ?_⟩
  · rw [resume_frame_chain]
    intro start' tween' k' m' hstate'
    dsimp only at hstate'
    split at hstate'
    · exact nomatch hstate'
    · obtain ⟨-, -, -, rfl⟩ := Rest.frame.inj (State.resting.inj hstate')
      exact ⟨d, field, rfl, howner, hfield, hm⟩
  · have hfilm := scene.change_films hfield (hm (tween.progress k))
    rw [howner] at hfilm
    exact hfilm
  · unfold shotsOf
    rw [List.map_map]
    exact List.map_id _

/-- A block that is carried out. -/
theorem Filmed.enter (hpart : score.repertoire.IsPartOf .builtin) {d : Deed}
    (howner : d.owner = c.owner) (ts : List Task) :
    Filmed score.repertoire scene (some d) (c.enter score scene d.block ts) := by
  have hact := hpart.staysIn ({ scene with operations := scene.operations + 1 }.cue c.owner) d.block
  refine ⟨?_, ?_, ?_⟩
  · -- a motion that the chain is left with is the one of the block
    intro start tween k m hstate
    rw [enter_chain] at hstate
    cases hlapse : (c.actOf score scene d.block).lapse with
    | goOn | giveUp | breakDown | pause =>
      rw [hlapse] at hstate
      exact absurd hstate (by simp [lapse, finish])
    | animate duration motion =>
      rw [hlapse] at hstate
      obtain ⟨-, -, -, rfl⟩ := Rest.frame.inj (State.resting.inj hstate)
      obtain ⟨field, hfield, hm⟩ := hact.motion _ _ hlapse
      refine ⟨d, field, rfl, ?_, hfield, hm⟩
      rw [enter_chain, owner_lapse, howner]
  -- what the block does at once is shown on the stage with the block counted
  · have hfilm := Scene.performAll_films d.block (c.actOf score scene d.block).effects
      { scene with operations := scene.operations + 1 } hact.effects
    rw [howner] at hfilm
    exact hfilm
  · unfold shotsOf
    rw [List.map_map]
    exact List.map_id _

/-- **A step of a chain** is seen in the field of its last deed, or not at all. If the step carries
out a block, then that is its last deed; otherwise the step can only show the next frame of a motion
that an earlier deed began. -/
theorem step_films (hpart : score.repertoire.IsPartOf .builtin) (hc : c.Shows score.repertoire d?)
    (i : Nat) :
    Filmed score.repertoire scene
      (((c.entering? scene.cancelled).map fun b => ⟨i, c.owner, b⟩).or d?) (c.step score scene) := by
  cases hcalled : scene.cancelled with
  | true =>
    have hstill : (c.step score scene).1.Shows score.repertoire d? :=
      shows_of_not_resting (c.chain_step_of_cancelled hcalled).2
    rw [entering?_true, ← Prod.eta (c.step score scene), step_of_cancelled hcalled]
    exact .still hstill
  | false => ?_
  -- a block that begins is seen in its own field, and a motion that goes on in that of the last deed
  refine c.step_cases hcalled (motive := fun done b? => Filmed score.repertoire scene
      ((b?.map fun b => ⟨i, c.owner, b⟩).or d?) done)
    ?ended ?pause ?frame ?finish ?enter ?dangling ?found ?spent ?round
  -- of all steps only a frame and a block are seen
  case ended => exact fun how hstate => .still hc
  case pause => exact fun wake _ => .still (shows_of_not_resting nofun)
  case frame => exact fun start tween k m hstate => .frame hc hstate
  case finish => exact fun _ _ => .still (shows_of_not_resting nofun)
  case enter => exact fun b ts _ _ => .enter (d := ⟨i, c.owner, b⟩) hpart rfl ts
  case dangling =>
    intro id ts hstate _ _
    exact .still (shows_of_not_resting fun rest => by rw [hstate]; exact nofun)
  case found =>
    intro id b ts hstate _ _
    exact .still (shows_of_not_resting fun rest => by rw [hstate]; exact nofun)
  case spent =>
    intro b ts hstate _
    exact .still (shows_of_not_resting fun rest => by rw [hstate]; exact nofun)
  case round =>
    intro b left ts hstate _
    exact .still (shows_of_not_resting fun rest => by rw [hstate]; exact nofun)

end Step

end Chain

/-! ### Runs -/

namespace Run

/-- A deed is done by the chain whose turn it is. -/
theorem chain_of_deed? {r : Run} {off : Bool} {i : Nat} : ∀ d ∈ r.deed? off i, d.chain = i := by
  intro d hd
  obtain ⟨c, -, b, -, rfl⟩ := of_mem_deed? hd
  rfl

theorem signals_step_of_mayAct {r : Run} {i : Nat} {c : Chain} (hc : r.chains[i]? = some c)
    (hmay : r.mayAct i = true) (off : Bool) (s : Stage) :
    (r.step off s i).2.2 = (c.step r.score ⟨s, r.operations, off⟩).2.2 := by
  unfold step
  rw [hc]
  simp only [hmay, if_true]

/-- **A run and its deeds so far**: every chain acts for the owner of its start block, and if it is
in a motion, its last deed began it. The owner is fixed when the run begins, by the stage as it is
set (`set`), and not looked up again. -/
structure Framing (score : Score) (set : Stage) (r : Run) (deeds : List Deed) : Prop where
  score_eq : r.score = score
  owner : ∀ (i : Nat) (c : Chain), r.chains[i]? = some c →
    ∃ b, score.program.starts[i]? = some b ∧ c.owner = ownerOf set b
  shows : ∀ (i : Nat) (c : Chain), r.chains[i]? = some c → c.Shows score.repertoire (lastDeed? deeds i)
  deeds : ∀ d ∈ deeds, ∃ b, score.program.starts[d.chain]? = some b ∧ d.owner = ownerOf set b

section Framing

variable {score : Score} {set : Stage} {r : Run} {deeds : List Deed}

theorem Framing.ofScore (number : Nat) (scheduling : Scheduling) (clock : Nat) :
    Framing score set (.ofScore number score scheduling set clock) [] where
  score_eq := rfl
  owner := by
    intro i c hc
    obtain ⟨b, hb, rfl⟩ := Option.map_eq_some_iff.mp (List.getElem?_map.symm.trans hc)
    exact ⟨b, hb, rfl⟩
  shows := by
    intro i c hc
    obtain ⟨b, -, rfl⟩ := Option.map_eq_some_iff.mp (List.getElem?_map.symm.trans hc)
    exact Chain.shows_of_not_resting nofun
  deeds _ hd := nomatch hd

/-- A chain stays with its owner, whoever takes a step. -/
theorem owner?_step (r : Run) (off : Bool) (s : Stage) (i j : Nat) :
    ((r.step off s i).1.chains[j]?).map Chain.owner = r.chains[j]?.map Chain.owner := by
  have hstep := congrArg (Option.map Chain.owner) (r.getElem?_step off s i j)
  rw [Option.map_map, Option.map_map] at hstep
  refine hstep.trans (Option.map_congr fun c _ => ?_)
  dsimp only [Function.comp_apply]
  split
  · exact c.owner_after_step
  · rfl

/-- **What a chain is showing** belongs to its last deed, before a step and after it. -/
theorem Framing.shows_step (hpart : score.repertoire.IsPartOf .builtin)
    (h : Framing score set r deeds) (off : Bool) (s : Stage) (i : Nat) {j : Nat} {c' : Chain}
    (hc' : (r.step off s i).1.chains[j]? = some c') :
    c'.Shows score.repertoire (lastDeed? (deeds ++ (r.deed? off i).toList) j) := by
  obtain ⟨c, hc, heq⟩ := chain_before_step hc'
  have hshows := h.shows j c hc
  by_cases hturn : i = j ∧ r.mayAct i = true
  · -- the chain whose turn it is
    obtain ⟨rfl, hmay⟩ := hturn
    rw [if_pos ⟨rfl, hmay⟩] at heq
    rw [← h.score_eq] at hpart hshows ⊢
    rw [lastDeed?_append_self deeds chain_of_deed?, (step_of_mayAct hc hmay off s).2]
    have hfilmed : Chain.Filmed r.score.repertoire ⟨s, r.operations, off⟩ _ _ :=
      Chain.step_films hpart hshows i
    exact Chain.shows_of_unclocked_eq heq hfilmed.shows
  · rw [if_neg hturn] at heq
    have hsame : lastDeed? (deeds ++ (r.deed? off i).toList) j = lastDeed? deeds j := by
      by_cases hij : i = j
      · -- it has to wait
        -- a chain that may not act does no deed
        have hwait : r.mayAct i = false := by simpa [hij] using hturn
        rw [(step_of_not_mayAct (fun _ => hwait) off s).2, Option.toList_none, List.append_nil]
      · exact lastDeed?_append_of_ne deeds chain_of_deed? hij
    rw [hsame]
    exact Chain.shows_of_unclocked_eq heq hshows

/-- **A step of a run** keeps this. -/
theorem Framing.step (hpart : score.repertoire.IsPartOf .builtin) (h : Framing score set r deeds)
    (off : Bool) (s : Stage) (i : Nat) :
    Framing score set (r.step off s i).1 (deeds ++ (r.deed? off i).toList) := by
  refine ⟨(r.score_step off s i).trans h.score_eq, ?owner, ?shows, ?deeds⟩
  case owner =>
    -- a step leaves every chain with its owner
    intro j c' hc'
    have howner := r.owner?_step off s i j
    rw [hc'] at howner
    obtain ⟨c, hc, hsame⟩ := Option.map_eq_some_iff.mp howner.symm
    obtain ⟨b, hb, hstart⟩ := h.owner j c hc
    exact ⟨b, hb, hsame.symm.trans hstart⟩
  case shows => exact fun j c' hc' => h.shows_step hpart off s i hc'
  case deeds =>
    -- the new deed is done for the owner of the chain that does it
    intro d hd
    rcases List.mem_append.mp hd with hd | hd
    · exact h.deeds d hd
    · obtain ⟨c, hc, b, -, rfl⟩ := of_mem_deed? (Option.mem_toList.mp hd)
      exact h.owner i c hc

/-- **A step of a run is seen** in the field of the last deed of its chain. -/
theorem Framing.films (hpart : score.repertoire.IsPartOf .builtin) (h : Framing score set r deeds)
    (off : Bool) (s : Stage) (i : Nat) :
    score.repertoire.Film s
        (shotsOf (lastDeed? (deeds ++ (r.deed? off i).toList) i) (frames (r.step off s i).2.2))
        (r.step off s i).2.1 ∧
      (shotsOf (lastDeed? (deeds ++ (r.deed? off i).toList) i)
        (frames (r.step off s i).2.2)).map Shot.stage = frames (r.step off s i).2.2 := by
  -- either the chain may not act, and nothing is done or shown, or the step of the run is that of
  -- the chain
  by_cases hidle : r.chains[i]?.isSome → r.mayAct i = false
  · obtain ⟨hstep, hdeed⟩ := step_of_not_mayAct hidle off s
    rw [hstep, hdeed, Option.toList_none, List.append_nil, frames_nil, shotsOf_nil]
    exact ⟨.nil, rfl⟩
  obtain ⟨hsome, hmay⟩ := Classical.not_imp.mp hidle
  obtain ⟨c, hc⟩ := Option.isSome_iff_exists.mp hsome
  have hact : r.mayAct i = true := by simpa using hmay
  have hshows : c.Shows r.score.repertoire (lastDeed? deeds i) := by
    rw [h.score_eq]
    exact h.shows i c hc
  have hfilmed : Chain.Filmed r.score.repertoire ⟨s, r.operations, off⟩ _ _ :=
    Chain.step_films (h.score_eq ▸ hpart) hshows i
  obtain ⟨hstage, hdeed⟩ := step_of_mayAct hc hact off s
  rw [lastDeed?_append_self deeds chain_of_deed?, hdeed, hstage, signals_step_of_mayAct hc hact,
    ← h.score_eq]
  exact ⟨hfilmed.film, hfilmed.frames_eq⟩

end Framing

end Run

/-! ### Whole runs -/

/-- The shots of a turn, with all deeds by then. -/
def Turn.shots (deeds : List Deed) (signals : List Signal) : Turn → List Shot
  | .chain i => shotsOf (lastDeed? deeds i) (frames signals)
  | .stop => []
  | .ask _ _ => []

namespace Engine

/-- **The shots of some turns**, with the deeds before them. -/
def shots (e : Engine) (deeds : List Deed) : List Turn → List Shot
  | [] => []
  | t :: ts =>
    let deeds' := deeds ++ (e.deed? t).toList
    t.shots deeds' (e.turn t).2 ++ (e.turn t).1.shots deeds' ts

/-- **The shots of a whole run**, behind the frame that sets the stage. A run that is over at once
or is ignored has none. -/
def film (e : Engine) (p : Project) (clock : Nat) (turns : List Turn) : List Shot :=
  match (e.start p clock).2.2 with
  | none => (e.start p clock).1.shots [] turns
  | some _ => []

section Film

variable {score : Score} {set : Stage}

/-- **A turn of an engine at its run** is seen shot by shot. -/
theorem Performing.turn_films (hpart : score.repertoire.IsPartOf .builtin) {e : Engine} {r : Run}
    (h : e.Performing r) {deeds : List Deed} (hr : r.Framing score set deeds) (t : Turn) :
    ∃ r', (e.turn t).1.Performing r' ∧ r'.Framing score set (deeds ++ (e.deed? t).toList) ∧
      (t.shots (deeds ++ (e.deed? t).toList) (e.turn t).2).map Shot.stage = frames (e.turn t).2 ∧
      score.repertoire.Film e.stage.stage (t.shots (deeds ++ (e.deed? t).toList) (e.turn t).2)
        (e.turn t).1.stage.stage := by
  cases t with
  | chain i =>
    obtain ⟨hperforming, -, hstage⟩ := h.step i
    have hsignals : (e.turn (.chain i)).2 = (r.step e.guard.calledOff e.stage.stage i).2.2 := by
      rw [turn_chain, h.step_eq]
    obtain ⟨hfilm, hframes⟩ := hr.films hpart e.guard.calledOff e.stage.stage i
    rw [hsignals, h.deed?_chain, turn_chain, hstage]
    exact ⟨_, hperforming, hr.step hpart _ _ i, hframes, hfilm⟩
  | stop =>
    -- a stop shows nothing, and the chains find out about it later
    refine ⟨r, ?_, ?_, rfl, ?_⟩
    · rw [turn_stop, h.stop_eq]
      exact ⟨h.run_eq, h.held, h.number_eq⟩
    · simpa only [deed?, Option.toList_none, List.append_nil] using hr
    · rw [turn_stop, h.stop_eq]
      exact .nil
  | ask p clock =>
    -- a request is ignored
    rw [turn_ask, h.start_eq]
    refine ⟨r, h, ?_, rfl, .nil⟩
    simpa only [deed?, Option.toList_none, List.append_nil] using hr

/-- The deed of a shot is one of the deeds by then. -/
theorem mem_of_mem_shots {t : Turn} {deeds : List Deed} {signals : List Signal} {shot : Shot}
    (h : shot ∈ t.shots deeds signals) : shot.deed ∈ deeds := by
  unfold Turn.shots at h
  split at h
  · next i =>
    unfold shotsOf at h
    split at h
    · exact nomatch h
    · next d hd =>
      obtain ⟨s, -, rfl⟩ := List.mem_map.mp h
      exact (List.mem_filter.mp (List.mem_of_getLast? hd)).1
  · exact nomatch h
  · exact nomatch h

/-- **Turns of an engine at its run** are seen shot by shot. The induction is on the turns, and
`Run.Framing` is what it carries along. -/
theorem Performing.films (hpart : score.repertoire.IsPartOf .builtin) {e : Engine} {r : Run}
    (h : e.Performing r) {deeds : List Deed} (hr : r.Framing score set deeds) (turns : List Turn) :
    (e.shots deeds turns).map Shot.stage = frames (e.play turns).signals ∧
      score.repertoire.Film e.stage.stage (e.shots deeds turns) (e.play turns).engine.stage.stage ∧
      ∀ shot ∈ e.shots deeds turns, shot.deed ∈ deeds ++ (e.play turns).deeds ∧
        ∃ b, score.program.starts[shot.deed.chain]? = some b ∧
          shot.deed.owner = Run.ownerOf set b := by
  induction turns generalizing e r deeds with
  | nil => exact ⟨rfl, .nil, fun _ hshot => nomatch hshot⟩
  | cons t turns ih =>
    obtain ⟨r', h', hr', hframes, hfilm⟩ := h.turn_films hpart hr t
    obtain ⟨hframes', hfilm', hdeeds'⟩ := ih h' hr'
    refine ⟨?_, hfilm.append hfilm', fun shot hshot => ?_⟩
    · rw [play_cons, frames_append, ← hframes, ← hframes']
      exact List.map_append
    -- a shot of the first turn, or of a later one
    · rcases List.mem_append.mp hshot with hshot | hshot
      · have hmem := mem_of_mem_shots hshot
        rw [play_cons, ← List.append_assoc]
        exact ⟨List.mem_append_left _ hmem, hr'.deeds _ hmem⟩
      · rw [play_cons, ← List.append_assoc]
        exact hdeeds' shot hshot

end Film

/-- The end of a run shows nothing. -/
theorem frames_conclude (e : Engine) : frames e.conclude.2.1 = [] := by
  exact e.conclude_cases (motive := fun finale => frames finale.2.1 = []) rfl (fun _ _ _ => rfl)
    fun _ _ _ _ => rfl

/-- **The frames of a run that keeps to their discipline**, up to some time. -/
structure Disciplined (e : Engine) (p : Project) (clock : Nat) (turns : List Turn) : Prop where
  /-- The first frame is the stage as it is set. The others are the shots of the film. -/
  frames_eq : frames (e.perform p clock turns).signals =
    .set p.actors p.backdrop :: (e.film p clock turns).map Shot.stage
  /-- Each differs from the frame before it at most in the first figure of the owner of the chain that
  shows it, and there in the field of the block that this chain carried out last. -/
  film : e.repertoire.Film (.set p.actors p.backdrop) (e.film p clock turns)
    (e.perform p clock turns).engine.stage.stage
  /-- This block was carried out indeed, and for the owner that the start block of the chain
  names. -/
  deed : ∀ shot ∈ e.film p clock turns, shot.deed ∈ (e.perform p clock turns).deeds ∧
    ∃ b, p.program.starts[shot.deed.chain]? = some b ∧
      shot.deed.owner = Run.ownerOf (.set p.actors p.backdrop) b
  /-- It is of a known kind, and it is no start, no wait and no repetition. -/
  loud : ∀ shot ∈ e.film p clock turns, e.repertoire.contains shot.deed.block.operation.tag ∧
    shot.deed.block.named ∉ [.start, .wait, .repeatCount, .repeatForever]
  /-- Backdrop and roster, names, images and sizes are the same in all frames, and so is every figure
  that no chain has for its owner or that is not the first one of its id. -/
  retains : ∀ shot ∈ e.film p clock turns, (Stage.set p.actors p.backdrop).Retains
    (fun id => ∃ b ∈ p.program.starts, Run.ownerOf (.set p.actors p.backdrop) b = some id) shot.stage

/-- **Every run keeps to the discipline of its frames**, where no more than some kinds of the
language are known, in any turns and at any time. -/
theorem frames_disciplined {e : Engine} (hidle : e.guard.held = false)
    (hpart : e.repertoire.IsPartOf .builtin) (p : Project) (clock : Nat) (turns : List Turn) :
    e.Disciplined p clock turns := by
  -- a run without start blocks shows the stage as it is set, and has no other shots
  by_cases hstarts : p.program.starts = []
  · have hfilm : e.film p clock turns = [] := by
      unfold Engine.film
      rw [start_of_idle_of_nothing hidle p clock hstarts]
    refine ⟨?_, ?_, ?_, ?_, ?_⟩ <;> rw [hfilm]
    · unfold perform
      rw [start_of_idle_of_nothing hidle p clock hstarts]
      rfl
    · unfold perform
      rw [start_of_idle_of_nothing hidle p clock hstarts]
      exact .nil
    all_goals exact fun _ hshot => absurd hshot List.not_mem_nil
  have hstart := start_of_idle hidle p clock hstarts
  have hbegun := performing_start hidle p clock hstarts
  have hset := stage_start hidle hstarts clock
  -- otherwise the film is that of the turns
  have hshots : e.film p clock turns = (e.start p clock).1.shots [] turns := by
    unfold Engine.film
    rw [hstart]
  have hwhole := perform_of_idle hidle hstarts clock turns
  obtain ⟨r, hr⟩ := hbegun.exists_play turns
  -- the turns of the run are seen shot by shot, and its end is not seen at all
  have hframing : (e.firstRun p clock).Framing ⟨p.program, e.repertoire, e.interval⟩
      (.set p.actors p.backdrop) [] := .ofScore _ _ _
  obtain ⟨hframes, hfilm, hdeeds⟩ := hbegun.films hpart hframing turns
  rw [← hshots] at hframes hdeeds
  rw [← hshots, hset, ← hr.conclude_eq.1] at hfilm
  refine ⟨?frames, ?film, ?deed, ?loud, ?retains⟩
  case frames =>
    rw [hwhole, frames_append, frames_append, frames_conclude, ← hframes, List.append_nil, hstart]
    rfl
  case film =>
    rw [hwhole]
    exact hfilm
  case deed =>
    rw [hwhole]
    exact hdeeds
  -- a shot shows its field, and these blocks have none
  case loud => exact fun shot hshot => Repertoire.loud_of_field? (hfilm.field?_isSome hshot)
  case retains =>
    -- who owns a deed owns a chain, and that is named by a start block
    refine hfilm.retains (.refl _ _) fun shot hshot id hid => ?_
    obtain ⟨-, b, hb, howner⟩ := hdeeds shot hshot
    exact ⟨b, List.mem_of_getElem? hb, howner.symm.trans hid⟩

/-- Two actors who rise at once, the second one first, and a stop between the frames of the first. -/
def sampleRising : List Turn :=
  List.replicate 5 (.chain 1) ++ List.replicate 26 (.chain 0)
    ++ [.chain 1, .stop, .chain 1, .chain 0, .chain 2]

/-- Three shots are seen: the first frame of either actor, and one more of the second; after the
stop there is none. -/
theorem sampleRising_disciplined :
    ((sample .concurrent).film .sample 0 sampleRising).map (fun shot => shot.deed.owner) =
        [some "Dog", some "Cat", some "Dog"] ∧
      (sample .concurrent).Disciplined .sample 0 sampleRising := by
  have howners : ((sample .concurrent).film .sample 0 sampleRising).map
      (fun shot => shot.deed.owner) = [some "Dog", some "Cat", some "Dog"] := by decide +kernel
  exact ⟨howners, frames_disciplined rfl (.refl _) .sample 0 sampleRising⟩

end Engine

end StagePlay
