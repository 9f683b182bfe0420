import StagePlay.Proofs.Run.Crossing

/-!
# A run with two scripts of one actor

Where two scripts move one actor along the two axes, and no other script is for that actor, a run
that is completed leaves the actor as far on either axis as the script of that axis has moved it, if at
no time both of them were in the middle of a move (`Engine.lanes_add_up`). While a run goes on, this holds
of an axis whenever no move along it is under way.

Where two moves overlap, one of them carries away the other: `Engine.sampleCrossing_lost`.
-/

namespace StagePlay

open Json Number Routine

/-- **Two scripts of one actor**, who is on the stage: the start blocks of the two lanes are for
that actor, and no other one is. Scripts of other actors may stand beside them, as many as there are
and whatever they do. -/
structure Project.Lanes (p : Project) (lane : Axis → Nat) (id : String) : Prop where
  ne : lane .across ≠ lane .upward
  actor : ∃ actor ∈ p.actors, actor.id = id
  owner : ∀ a, ∃ b, p.program.starts[lane a]? = some b ∧
    Run.ownerOf (.set p.actors p.backdrop) b = some id
  others : ∀ (k : Nat) (b : Block), p.program.starts[k]? = some b →
    Run.ownerOf (.set p.actors p.backdrop) b = some id → ∃ a, k = lane a

theorem Project.Lanes.ne_other {p : Project} {lane : Axis → Nat} {id : String} (h : p.Lanes lane id)
    (a : Axis) : lane a ≠ lane a.other := by
  cases a
  · exact h.ne
  · exact h.ne.symm

namespace Engine

/-- Whether a chain of the run of an engine is in the middle of a motion. -/
def isMoving (e : Engine) (i : Nat) : Bool := e.run?.any fun r => r.isMoving i

/-- **The moves of two chains come one after the other**: at no time during some turns both chains
are in the middle of one. Each prefix of the turns is such a time, the empty one included. -/
def MovesApart (e : Engine) (i j : Nat) (turns : List Turn) : Prop :=
  ∀ ts ∈ turns.inits, (e.play ts).engine.isMoving i = false ∨ (e.play ts).engine.isMoving j = false

instance (e : Engine) (i j : Nat) (turns : List Turn) : Decidable (e.MovesApart i j turns) :=
  inferInstanceAs (Decidable (∀ ts ∈ turns.inits, _))

theorem movesApart_cons {e : Engine} {i j : Nat} {t : Turn} {ts : List Turn} :
    e.MovesApart i j (t :: ts) ↔
      (e.isMoving i = false ∨ e.isMoving j = false) ∧ (e.turn t).1.MovesApart i j ts := by
  unfold MovesApart
  rw [List.inits_cons, List.forall_mem_cons, List.forall_mem_map]
  rfl

theorem MovesApart.now {e : Engine} {i j : Nat} {ts : List Turn} (h : e.MovesApart i j ts) :
    e.isMoving i = false ∨ e.isMoving j = false :=
  h [] (by cases ts <;> exact List.mem_cons_self)

theorem Performing.isMoving_eq {e : Engine} {r : Run} (h : e.Performing r) (i : Nat) :
    e.isMoving i = r.isMoving i := by
  unfold isMoving
  rw [h.run_eq]
  rfl

/-- If two lanes are not both moving, then one is not. -/
theorem Performing.exists_still {e : Engine} {r : Run} (h : e.Performing r) {lane : Axis → Nat}
    (hstill : e.isMoving (lane .across) = false ∨ e.isMoving (lane .upward) = false) :
    ∃ a, r.isMoving (lane a) = false := by
  rw [h.isMoving_eq, h.isMoving_eq] at hstill
  rcases hstill with hstill | hstill
  · exact ⟨.across, hstill⟩
  · exact ⟨.upward, hstill⟩

section Turns

variable {score : Score} {lane : Axis → Nat} {id : String} {signals : List Signal} {deeds : List Deed}

/-- **Turns of a run with two lanes** keep its actor where the lanes have led together. The
induction is on the turns, and three invariants are carried along: whose chains the lanes are
(`Run.Lanes`), that every place is in bounds, which keeps the sums of moves exact (`Run.InBounds`),
and where the actor is (`Run.Crossing`). -/
theorem Performing.crossing (hlane : ∀ a, lane a ≠ lane a.other) {e : Engine} {r : Run}
    (h : e.Performing r) (hoff : e.guard.calledOff = false) (hlanes : r.Lanes lane id e.stage.stage)
    (hbounds : r.InBounds score e.stage.stage signals deeds)
    (hcrossing : r.Crossing lane id e.stage.stage deeds) {ts : List Turn} (hstop : .stop ∉ ts)
    (hkinds : ∀ d ∈ (e.play ts).deeds, ∀ a, d.chain = lane a → d.block.named ∈ a.operations)
    (hapart : e.MovesApart (lane .across) (lane .upward) ts) :
    ∃ r', (e.play ts).engine.Performing r' ∧ r'.Lanes lane id (e.play ts).engine.stage.stage ∧
      r'.Crossing lane id (e.play ts).engine.stage.stage (deeds ++ (e.play ts).deeds) := by
  -- the bounds keep the moves exact, so they are carried along
  induction ts generalizing e r signals deeds with
  | nil => exact ⟨r, h, hlanes, by simpa only [Engine.play, List.append_nil] using hcrossing⟩
  | cons t ts ih =>
    have hstop' : .stop ∉ ts := fun hmem => hstop (List.mem_cons_of_mem t hmem)
    obtain ⟨hbefore, hrest⟩ := movesApart_cons.mp hapart
    rw [play_cons] at hkinds ⊢
    rw [← List.append_assoc]
    obtain ⟨hfirst, hlater⟩ := List.forall_mem_append.mp hkinds
    cases t with
    -- a stop is excluded
    | stop => exact absurd List.mem_cons_self hstop
    | ask p clock =>
      -- who asks for another run meanwhile is turned away
      rw [turn_ask, h.start_eq] at hlater hrest ⊢
      rw [deed?, Option.toList_none, List.append_nil]
      exact ih h hoff hlanes hbounds hcrossing hstop' hlater hrest
    | chain k =>
      obtain ⟨h', hguard, hstage⟩ := h.step k
      have hpart : score.repertoire.IsPartOf .builtin := by
        rw [← hbounds.score_eq, hlanes.repertoire_eq]
        exact .refl _
      have hbounds' : (r.step false e.stage.stage k).1.InBounds score
          (r.step false e.stage.stage k).2.1 (signals ++ (r.step false e.stage.stage k).2.2)
          (deeds ++ (r.deed? false k).toList) := (Run.account_inBounds score hpart).chain k hbounds
      rw [hoff] at h' hstage
      rw [h.deed?_chain, hoff] at hfirst ⊢
      -- what the step of a chain keeps needs both what was moving before it and what is after it
      have hcrossing' := hcrossing.step hlane hlanes hbounds k
        (fun d hd => hfirst d (Option.mem_toList.mpr hd)) (h.exists_still hbefore)
        (h'.exists_still hrest.now)
      have hlanes' := hlanes.step k
      rw [← hstage] at hlanes' hbounds' hcrossing'
      exact ih h' (hguard ▸ hoff) hlanes' hbounds' hcrossing' hstop' hlater hrest

end Turns

section Whole

variable {e : Engine} (hidle : e.guard.held = false) (hbuiltin : e.repertoire = .builtin)
  (hconcurrent : e.scheduling = .concurrent) {p : Project} {lane : Axis → Nat} {id : String}
  (hlanes : p.Lanes lane id) (clock : Nat)

include hbuiltin hconcurrent hlanes in
/-- A run with two lanes at its beginning. -/
theorem lanes_firstRun :
    (e.firstRun p clock).Lanes lane id (.set p.actors p.backdrop) where
  scheduling_eq := hconcurrent
  repertoire_eq := hbuiltin
  owner a := by
    obtain ⟨b, hb, howner⟩ := hlanes.owner a
    exact ⟨_, by rw [firstRun, Run.ofScore, List.getElem?_map, hb]; rfl, howner⟩
  others := by
    intro k c hc howner
    rw [firstRun, Run.ofScore, List.getElem?_map] at hc
    obtain ⟨b, hb, rfl⟩ := Option.map_eq_some_iff.mp hc
    exact hlanes.others k b hb howner
  figure := by
    obtain ⟨actor, hmem, rfl⟩ := hlanes.actor
    refine Option.isSome_iff_exists.mp (List.find?_isSome.mpr ⟨.ofActor actor, ?_, decide_eq_true rfl⟩)
    exact List.mem_map_of_mem hmem

/-- Nobody has moved yet. -/
theorem crossing_firstRun (e : Engine) (p : Project) (clock : Nat) (lane : Axis → Nat) (id : String) :
    (e.firstRun p clock).Crossing lane id (.set p.actors p.backdrop) [] := by
  refine ⟨fun a => ?_, fun f hf _ => ?_, fun f a start tween k m _ hstate => ?_⟩
  · exact show (0.0 : Float) ≠ -0.0 by decide
  · obtain ⟨actor, -, rfl⟩ := List.mem_map.mp (List.mem_of_find?_eq_some hf)
    rfl
  · rw [Run.state?, firstRun, Run.ofScore, List.getElem?_map, Option.map_map] at hstate
    obtain ⟨b, -, hwalking⟩ := Option.map_eq_some_iff.mp hstate
    exact absurd hwalking (by simp [Chain.ofStart])

include hidle hbuiltin hconcurrent hlanes in
/-- **Two scripts of one actor whose moves do not overlap add up.** One moves the actor to the left
and to the right and the other one up and down; beside this they only wait and repeat. All at once,
in whatever order the chains have their turns, the actor is at any time as far on an axis as the
script of that axis has moved it, if no move along it is under way. So when the run is completed, the
actor is where both have led together. -/
theorem lanes_add_up {turns : List Turn}
    (hkinds : ∀ d ∈ (e.perform p clock turns).deeds, ∀ a, d.chain = lane a →
      d.block.named ∈ a.operations)
    (hapart : (e.start p clock).1.MovesApart (lane .across) (lane .upward) turns) :
    (.stop ∉ turns → ∃ f, ((e.start p clock).1.play turns).engine.stage.stage.figure? id = some f ∧
      ∀ a, ((e.start p clock).1.play turns).engine.isMoving (lane a) = false →
        f.position.along a = travelled (e.perform p clock turns).deeds (lane a) a) ∧
    ∀ n, (e.perform p clock turns).result? = some (.report ⟨.completed, n⟩) →
      ∃ f, (e.perform p clock turns).engine.stage.stage.figure? id = some f ∧
        f.position.x = travelled (e.perform p clock turns).deeds (lane .across) .across ∧
        f.position.y = travelled (e.perform p clock turns).deeds (lane .upward) .upward := by
  have hstarts : p.program.starts ≠ [] := by
    intro hnothing
    obtain ⟨b, hb, -⟩ := hlanes.owner .across
    rw [hnothing] at hb
    exact nomatch hb
  have hperforming := performing_start hidle p clock hstarts
  rw [perform_of_idle hidle hstarts] at hkinds ⊢
  -- at any time, whether the run is going to end or not
  have hanytime : .stop ∉ turns → ∃ r, ((e.start p clock).1.play turns).engine.Performing r ∧
      r.Lanes lane id ((e.start p clock).1.play turns).engine.stage.stage ∧
      r.Crossing lane id ((e.start p clock).1.play turns).engine.stage.stage
        ((e.start p clock).1.play turns).deeds := by
    intro hstop
    have hset := stage_start hidle hstarts clock
    have hlanes' : (e.firstRun p clock).Lanes lane id (e.start p clock).1.stage.stage := by
      rw [hset]
      exact lanes_firstRun hbuiltin hconcurrent hlanes clock
    have hbounds := e.inBounds_firstRun p clock
    have hcrossing := e.crossing_firstRun p clock lane id
    rw [← hset] at hbounds hcrossing
    exact hperforming.crossing hlanes.ne_other (by rw [guard_start hidle hstarts]) hlanes' hbounds
      hcrossing hstop hkinds hapart
  constructor
  · intro hstop
    obtain ⟨r, h, hlanes', hcrossing⟩ := hanytime hstop
    obtain ⟨f, hf⟩ := hlanes'.figure
    exact ⟨f, hf, fun a ha => hcrossing.along_eq hf (h.isMoving_eq _ ▸ ha)⟩
  · intro n hcompleted
    dsimp only at hcompleted ⊢
    obtain ⟨r, h, hlanes', hcrossing⟩ := hanytime (hperforming.stop_not_mem hcompleted)
    obtain ⟨hstage, -, hresult⟩ := h.conclude_eq
    rw [hresult, Run.result?_eq_completed] at hcompleted
    -- all chains have ended, so no move is under way any more
    have hstill (a : Axis) : r.isMoving (lane a) = false := by
      obtain ⟨c, hc, -⟩ := hlanes'.owner a
      unfold Run.isMoving
      rw [hc, Option.any_some]
      exact Chain.isMoving_of_ending (hcompleted.2.2 c (List.mem_of_getElem? hc))
    obtain ⟨f, hf⟩ := hlanes'.figure
    rw [hstage]
    exact ⟨f, hf, hcrossing.along_eq hf (hstill .across), hcrossing.along_eq hf (hstill .upward)⟩

end Whole

/-- Two scripts of one actor, which move it once along either axis. -/
def sampleCrossing : Project where
  program := .ofBlocks
    [⟨"aside", .start, .empty, [], some "right", []⟩,
      ⟨"right", .moveRight, .empty, [], none, []⟩,
      ⟨"ahead", .start, .empty, [], some "up", []⟩,
      ⟨"up", .moveUp, .empty, [], none, []⟩]
  actors := [⟨"Cat", "Cat", "cat.png"⟩]
  backdrop := none

/-- The same two scripts with two moves each. -/
def sampleWeaving : Project where
  program := .ofBlocks
    [⟨"aside", .start, .empty, [], some "right", []⟩,
      ⟨"right", .moveRight, .empty, [], some "further", []⟩,
      ⟨"further", .moveRight, .empty, [], none, []⟩,
      ⟨"ahead", .start, .empty, [], some "up", []⟩,
      ⟨"up", .moveUp, .empty, [], some "higher", []⟩,
      ⟨"higher", .moveUp, .empty, [], none, []⟩]
  actors := [⟨"Cat", "Cat", "cat.png"⟩]
  backdrop := none

/-- The lanes of the samples. -/
def sampleLane : Axis → Nat
  | .across => 0
  | .upward => 1

/-- **Two scripts are two lanes**, if they are all that there is and belong to the same actor. -/
theorem sampleLane_of_starts {p : Project} {b b' : Block} {id : String}
    (hactor : ∃ actor ∈ p.actors, actor.id = id) (hstarts : p.program.starts = [b, b'])
    (hb : Run.ownerOf (.set p.actors p.backdrop) b = some id)
    (hb' : Run.ownerOf (.set p.actors p.backdrop) b' = some id) : p.Lanes sampleLane id where
  ne := by decide
  actor := hactor
  owner a := by
    rw [hstarts]
    cases a
    · exact ⟨b, rfl, hb⟩
    · exact ⟨b', rfl, hb'⟩
  others k c hc _ := by
    rw [hstarts] at hc
    obtain ⟨hk, -⟩ := List.getElem?_eq_some_iff.mp hc
    match k, hk with
    | 0, _ => exact ⟨.across, rfl⟩
    | 1, _ => exact ⟨.upward, rfl⟩

theorem sampleCrossing_lanes : sampleCrossing.Lanes sampleLane "Cat" :=
  sampleLane_of_starts ⟨_, List.mem_singleton_self _, rfl⟩ rfl rfl rfl

theorem sampleWeaving_lanes : sampleWeaving.Lanes sampleLane "Cat" :=
  sampleLane_of_starts ⟨_, List.mem_singleton_self _, rfl⟩ rfl rfl rfl

/-- Turns in which the moves of the two scripts alternate: while either script is in the middle of a
move, the other one comes as far as its own next move. -/
def turnsWoven : List Turn :=
  [(0, 5), (1, 3), (0, 1), (1, 2), (0, 2), (1, 1), (0, 2), (1, 2), (0, 1), (1, 2), (0, 2),
    (1, 3)].flatMap fun (i, n) => List.replicate n (Turn.chain i)

/-- Both scripts of the sample come to their end step by step. -/
def turnsTogether : List Turn := (List.replicate 8 [Turn.chain 0, .chain 1]).flatten

/-- What the scripts of the sample do. -/
theorem sampleCrossing_kinds {deeds : List Deed}
    (h : ∀ d ∈ deeds, (d.chain = 0 → d.block.named ∈ Axis.across.operations) ∧
      (d.chain = 1 → d.block.named ∈ Axis.upward.operations)) :
    ∀ d ∈ deeds, ∀ a, d.chain = sampleLane a → d.block.named ∈ a.operations := by
  intro d hd a ha
  cases a
  · exact (h d hd).1 ha
  · exact (h d hd).2 ha

/-- In turns with each other, the moves of two scripts add up. In the middle of the run, while one
script is on its second move, the actor is as far ahead as the other one has led it with its first; at
the end it is where both have led it with all of theirs. -/
theorem sampleCrossing_adds_up :
    ((Engine.sample .concurrent).perform sampleWeaving 0 turnsWoven).result? =
        some (.report ⟨.completed, 6⟩) ∧
      (((Engine.sample .concurrent).start sampleWeaving 0).1.play
          (turnsWoven.take 17)).engine.isMoving 0 = true ∧
      (∃ f, (((Engine.sample .concurrent).start sampleWeaving 0).1.play
          (turnsWoven.take 17)).engine.stage.stage.figure? "Cat" = some f ∧ f.position.y = 50.0) ∧
      ∃ f, ((Engine.sample .concurrent).perform sampleWeaving 0 turnsWoven).engine.stage.stage.figure?
          "Cat" = some f ∧ f.position.x = 100.0 ∧ f.position.y = 100.0 := by
  have hresult : ((Engine.sample .concurrent).perform sampleWeaving 0 turnsWoven).result? =
      some (.report ⟨.completed, 6⟩) := by decide +kernel
  -- what the theorem asks of the turns, of all of them and of those up to the middle
  have hkinds : ∀ d ∈ ((Engine.sample .concurrent).perform sampleWeaving 0 turnsWoven).deeds,
      ∀ a, d.chain = sampleLane a → d.block.named ∈ a.operations :=
    sampleCrossing_kinds (by decide +kernel)
  have hapart : ((Engine.sample .concurrent).start sampleWeaving 0).1.MovesApart
      (sampleLane .across) (sampleLane .upward) turnsWoven := by decide +kernel
  have hkinds' : ∀ d ∈ ((Engine.sample .concurrent).perform sampleWeaving 0
      (turnsWoven.take 17)).deeds, ∀ a, d.chain = sampleLane a → d.block.named ∈ a.operations :=
    sampleCrossing_kinds (by decide +kernel)
  have hapart' : ((Engine.sample .concurrent).start sampleWeaving 0).1.MovesApart
      (sampleLane .across) (sampleLane .upward) (turnsWoven.take 17) := by decide +kernel
  -- how far the scripts have led by then
  have hmiddle : (((Engine.sample .concurrent).start sampleWeaving 0).1.play
        (turnsWoven.take 17)).engine.isMoving 0 = true ∧
      (((Engine.sample .concurrent).start sampleWeaving 0).1.play
        (turnsWoven.take 17)).engine.isMoving 1 = false ∧
      travelled ((Engine.sample .concurrent).perform sampleWeaving 0
        (turnsWoven.take 17)).deeds 1 .upward = 50.0 := by decide +kernel
  have htravelled : travelled ((Engine.sample .concurrent).perform sampleWeaving 0 turnsWoven).deeds 0
        .across = 100.0 ∧
      travelled ((Engine.sample .concurrent).perform sampleWeaving 0 turnsWoven).deeds 1 .upward =
        100.0 := by decide +kernel
  have hnostop : .stop ∉ turnsWoven.take 17 := fun h => by
    simpa [turnsWoven] using List.mem_of_mem_take h
  obtain ⟨f, hf, hahead⟩ :=
    (lanes_add_up rfl rfl rfl sampleWeaving_lanes 0 hkinds' hapart').1 hnostop
  obtain ⟨g, hg, hx, hy⟩ :=
    (lanes_add_up rfl rfl rfl sampleWeaving_lanes 0 hkinds hapart).2 6 hresult
  exact ⟨hresult, hmiddle.1, ⟨f, hf, (hahead .upward hmiddle.2.1).trans hmiddle.2.2⟩, g, hg,
    hx.trans htravelled.1, hy.trans htravelled.2⟩

/-- **Where they overlap, one of them is lost**: both scripts have made their move, and the run is
completed, but the actor has come ahead only. -/
theorem sampleCrossing_lost :
    sampleCrossing.Lanes sampleLane "Cat" ∧
      (∀ d ∈ ((Engine.sample .concurrent).perform sampleCrossing 0 turnsTogether).deeds,
        ∀ a, d.chain = sampleLane a → d.block.named ∈ a.operations) ∧
      ((Engine.sample .concurrent).perform sampleCrossing 0 turnsTogether).result? =
        some (.report ⟨.completed, 4⟩) ∧
      (∀ a, travelled ((Engine.sample .concurrent).perform sampleCrossing 0 turnsTogether).deeds
        (sampleLane a) a = 50.0) ∧
      ∃ f, ((Engine.sample .concurrent).perform sampleCrossing 0
          turnsTogether).engine.stage.stage.figure? "Cat" = some f ∧ f.position = ⟨0.0, 50.0⟩ := by
  have hkinds : ∀ d ∈ ((Engine.sample .concurrent).perform sampleCrossing 0 turnsTogether).deeds,
      ∀ a, d.chain = sampleLane a → d.block.named ∈ a.operations :=
    sampleCrossing_kinds (by decide +kernel)
  have htravelled : ∀ a, travelled ((Engine.sample .concurrent).perform sampleCrossing 0
      turnsTogether).deeds (sampleLane a) a = 50.0 := fun a => by
    cases a <;> decide +kernel
  have hplace : ∃ f ∈ ((Engine.sample .concurrent).perform sampleCrossing 0
      turnsTogether).engine.stage.stage.figure? "Cat", f.position = ⟨0.0, 50.0⟩ := by decide +kernel
  exact ⟨sampleCrossing_lanes, hkinds, by decide +kernel, htravelled, hplace⟩

end Engine

end StagePlay
