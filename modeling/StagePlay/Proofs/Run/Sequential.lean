import StagePlay.Proofs.Engine.Turns

/-!
# Runs one after the other

A run whose chains have their turns one after the other, against the plain meaning of its program.
The meaning knows no chain, no frame and no clock: start block by start block, a program `Enacts`
the blocks that each start block unfolds to, for the owner of its chain, and the stage is the one
that `Stage.enact` makes of the fresh stage, effect by effect.

* `InTurn` is the invariant: of the chains of a run at most one is on its way, those before it are
  completed and those after it have not begun. What the chains have left to do (`Left`), put behind
  what was done, is what the program enacts; and the stage, seen from where the motion under way
  ends, is what the deeds so far made of it.
* `Engine.sequential_run_enacts`: a run that is reported completed carried out just what its program
  enacts, counted it, announced the blocks of unknown kinds among it, and left the stage that its
  effects make.
-/

namespace StagePlay

/-- **A piece of work**: a block that is carried out for an owner. Which chain did it and when is
left out, since the meaning of a program knows neither. -/
structure Work where
  owner : Option String
  block : Block

/-- The work that a deed does: its block, for the owner of the chain. -/
def Deed.work (d : Deed) : Work := ⟨d.owner, d.block⟩

/-- **What a program enacts** on a stage from some start blocks: each of them unfolds, for the owner
of its chain, in the order in which they are declared. -/
inductive Program.Enacts (p : Program) (stage : Stage) : List Block → List Work → Prop where
  | nil : p.Enacts stage [] []
  | cons {b : Block} {bs : List Block} {l : List Block} {ws : List Work}
      (hchain : p.Unfolds (.chain b) l) (hrest : p.Enacts stage bs ws) :
      p.Enacts stage (b :: bs) (l.map (⟨Run.ownerOf stage b, ·⟩) ++ ws)

/-- **The stage after some work**, each block having its effect at once, as if no motion took any
time. A run comes to the same stage by showing the frames in between. -/
def Stage.enact (rep : Repertoire) (s : Stage) (ws : List Work) : Stage :=
  ws.foldl (fun s w => s.alter w.owner (rep.effect w.block)) s

/-- A program enacts one list of works at most, since each start block unfolds to one list of
blocks. So the relation is as good as a function where it gives anything. -/
theorem Program.Enacts.unique {p : Program} {stage : Stage} {bs : List Block} {ws ws' : List Work}
    (h : p.Enacts stage bs ws) (h' : p.Enacts stage bs ws') : ws = ws' := by
  induction h generalizing ws' with
  | nil =>
    cases h'
    rfl
  | cons hchain _ ih =>
    cases h' with
    | cons hchain' hrest' => rw [hchain.unique hchain', ih hrest']

/-! ### What is left to do -/

/-- **The work that some chains have left**, that of the first chain first: what its script still
performs, for its own owner. It is a relation, as a script may have no finite work left. -/
def Program.Left (p : Program) : List Chain → List Work → Prop
  | [], ws => ws = []
  | c :: cs, ws => ∃ l ws', p.Performs c.script l ∧ p.Left cs ws' ∧ ws = l.map (⟨c.owner, ·⟩) ++ ws'

section Left

variable {p : Program}

/-- Before anything is done, the whole program is left: a chain that has not begun has its start
block to do, with all that this unfolds to. -/
theorem Program.Left.enacts {stage : Stage} {clock : Nat} {bs : List Block} {ws : List Work}
    (h : p.Left (bs.map fun b => .ofStart (Run.ownerOf stage b) clock b) ws) :
    p.Enacts stage bs ws := by
  induction bs generalizing ws with
  | nil =>
    obtain rfl := h
    exact .nil
  | cons b bs ih =>
    obtain ⟨l, ws', ⟨l₁, l₂, hchain, hnothing, rfl⟩, hrest, rfl⟩ := h
    obtain rfl : l₂ = [] := hnothing
    rw [List.append_nil]
    exact .cons hchain (ih hrest)

/-- Chains with nothing to do can be left out in front of others. These are the ones that are
completed. -/
theorem Program.left_append {cs cs' : List Chain} {ws : List Work}
    (hcs : ∀ c ∈ cs, c.script = []) : p.Left (cs ++ cs') ws ↔ p.Left cs' ws := by
  induction cs with
  | nil => rfl
  | cons c cs ih =>
    have hrest := ih fun d hd => hcs d (List.mem_cons_of_mem c hd)
    constructor
    · rintro ⟨l, ws', hc, hleft, rfl⟩
      rw [hcs c List.mem_cons_self] at hc
      obtain rfl : l = [] := hc
      exact hrest.mp hleft
    · intro hleft
      refine ⟨[], ws, ?_, hrest.mpr hleft, rfl⟩
      rw [hcs c List.mem_cons_self]
      exact Program.performs_nil

/-- Clocks do not matter to what is left. -/
theorem Program.left_unclocked {cs : List Chain} {ws : List Work} :
    p.Left (cs.map Chain.unclocked) ws ↔ p.Left cs ws := by
  induction cs generalizing ws with
  | nil => rfl
  | cons c cs ih => simp only [List.map_cons, Program.Left, Chain.unclocked, ih]

end Left

/-! ### Where the stage will be -/

/-- The stage once the motions of some chains have ended. One chain at most is in a motion, so this
is the stage seen from where that motion leads. -/
def landedAll (cs : List Chain) (s : Stage) : Stage := cs.foldl (fun s c => c.landed s) s

/-- Where no chain is in a motion, the stage is as it is shown. -/
theorem landedAll_of_land_eq_id {cs : List Chain} (h : ∀ c ∈ cs, c.state.land = id) (s : Stage) :
    landedAll cs s = s := by
  induction cs with
  | nil => rfl
  | cons c cs ih =>
    change landedAll cs (c.landed s) = s
    rw [Chain.landed_of_land_eq_id (h c List.mem_cons_self)]
    exact ih fun d hd => h d (List.mem_cons_of_mem c hd)

theorem landedAll_append (cs cs' : List Chain) (s : Stage) :
    landedAll (cs ++ cs') s = landedAll cs' (landedAll cs s) := List.foldl_append

theorem landedAll_unclocked (cs : List Chain) (s : Stage) :
    landedAll (cs.map Chain.unclocked) s = landedAll cs s := List.foldl_map

theorem Chain.land_of_ending?_eq_some {c : Chain} {how : Ending} (h : c.ending? = some how) :
    c.state.land = id := by
  unfold ending? at h
  split at h
  · next hstate =>
    rw [hstate]
    rfl
  · exact absurd h (by simp)

/-! ### The invariant -/

section InTurn

variable (score : Score) (set : Stage)

/-- **Some chains that have their turns one after the other**, of a run that is not called off. What
was done and what is left make up the program's meaning at any moment; at the end nothing is left.
-/
structure InTurn (chains : List Chain) (s : Stage) (deeds : List Deed) : Prop where
  /-- Where a chain is not completed, those after it have not begun. -/
  order : chains.Pairwise fun c c' => c.ending? = some .completed ∨ c'.state = .walking
  /-- A chain that has ended has nothing left to do. -/
  ended : ∀ c ∈ chains, ∀ how, c.ending? = some how → c.script = []
  /-- What is left, behind what was done, is what the program enacts. -/
  left : ∀ ws, score.program.Left chains ws →
    score.program.Enacts set score.program.starts (deeds.map Deed.work ++ ws)
  /-- The deeds so far have their effect where the motion under way ends. -/
  landed : landedAll chains s = set.enact score.repertoire (deeds.map Deed.work)

variable {score} {set} {s : Stage} {deeds : List Deed}

/-- A run that begins has all its chains before it: nothing was done, everything is left, and no
figure has moved. -/
theorem inTurn_ofStart (clock : Nat) :
    InTurn score set
      (score.program.starts.map fun b => .ofStart (Run.ownerOf set b) clock b) set [] where
  order := List.pairwise_map.mpr (List.pairwise_of_forall fun _ _ => Or.inr rfl)
  ended := by
    intro c hc how hending
    obtain ⟨b, -, rfl⟩ := List.mem_map.mp hc
    exact absurd hending (by simp [Chain.ending?, Chain.ofStart])
  left := fun ws hleft => hleft.enacts
  landed := by
    refine landedAll_of_land_eq_id (fun c hc => ?_) set
    obtain ⟨b, -, rfl⟩ := List.mem_map.mp hc
    rfl

/-- Clocks do not matter to the order of turns, so the clock that a chain is handed can be left out
when it begins. -/
theorem inTurn_unclocked {chains : List Chain} :
    InTurn score set (chains.map Chain.unclocked) s deeds ↔ InTurn score set chains s deeds := by
  constructor
  · intro h
    refine ⟨List.pairwise_map.mp h.order, ?_, ?_, ?_⟩
    · exact fun c hc how => h.ended c.unclocked (List.mem_map_of_mem hc) how
    · exact fun ws hleft => h.left ws (Program.left_unclocked.mpr hleft)
    · exact (landedAll_unclocked chains s).symm.trans h.landed
  · intro h
    refine ⟨List.pairwise_map.mpr h.order, ?_, ?_, ?_⟩
    · intro c hc how hending
      obtain ⟨d, hd, rfl⟩ := List.mem_map.mp hc
      exact h.ended d hd how hending
    · exact fun ws hleft => h.left ws (Program.left_unclocked.mp hleft)
    · exact (landedAll_unclocked chains s).trans h.landed

/-- **A step of the chain whose turn it is** keeps the chains in turn. The chains before it are
completed and have nothing left; those behind it walk, at their start blocks. So what is left, and
where the stage will be, changes by this chain's own part alone. -/
theorem InTurn.step {cs cs' : List Chain} {c : Chain} (n : Nat)
    (hpart : score.repertoire.IsPartOf .builtin)
    (h : InTurn score set (cs ++ c :: cs') s deeds)
    (hbefore : ∀ d ∈ cs, d.ending? = some .completed) :
    InTurn score set (cs ++ (c.step score ⟨s, n, false⟩).1 :: cs')
      (c.step score ⟨s, n, false⟩).2.1.stage
      (deeds ++ ((c.entering? false).map fun b => ⟨cs.length, c.owner, b⟩).toList) := by
  cases hending : c.ending? with
  | some how =>
    -- a chain that has ended stays where it is
    rw [Chain.step_of_ending hending, Chain.entering?_of_ending hending]
    simpa only [Option.map_none, Option.toList_none, List.append_nil] using h
  | none => ?_
  obtain ⟨horder, horder', hbetween⟩ := List.pairwise_append.mp h.order
  obtain ⟨hnext, horder'⟩ := List.pairwise_cons.mp horder'
  have hwaiting : ∀ d ∈ cs', d.state = .walking := fun d hd =>
    (hnext d hd).resolve_left (by rw [hending]; simp)
  have hdone : ∀ d ∈ cs, d.script = [] := fun d hd =>
    h.ended d (List.mem_append_left _ hd) _ (hbefore d hd)
  have hstill : ∀ d ∈ cs, d.state.land = id := fun d hd =>
    Chain.land_of_ending?_eq_some (hbefore d hd)
  have hstill' : ∀ d ∈ cs', d.state.land = id := fun d hd => by rw [hwaiting d hd]; rfl
  refine ⟨?order, ?ended, ?left, ?landed⟩
  case order =>
    -- those before it are still completed, those behind it still walk
    refine List.pairwise_append.mpr ⟨horder, List.pairwise_cons.mpr ⟨?_, horder'⟩, ?_⟩
    · exact fun d hd => Or.inr (hwaiting d hd)
    · exact fun d hd _ _ => Or.inl (hbefore d hd)
  case ended =>
    -- if the chain has ended with this step, it had nothing left to do
    intro d hd how hhow
    rcases List.mem_append.mp hd with hd | hd
    · exact hdone d hd
    rcases List.mem_cons.mp hd with rfl | hd
    · exact (c.step_ended hpart rfl (Chain.ending?_eq_some.mp hhow) hending).2
    · exact h.ended d (List.mem_append_right _ (List.mem_cons_of_mem c hd)) how hhow
  case left =>
    -- what its script performs now, behind the block it has entered, is what it performed before
    intro ws hleft
    obtain ⟨l, ws', hperforms, hrest, rfl⟩ := (Program.left_append hdone).mp hleft
    have hwhole := h.left _ ((Program.left_append hdone).mpr
      ⟨_, ws', c.step_performs hpart rfl hperforms, hrest, rfl⟩)
    rw [Chain.owner_step rfl]
    cases hb : c.entering? false with
    | none => simpa [hb] using hwhole
    | some b => simpa [hb, Deed.work] using hwhole
  case landed =>
    -- a block has its whole effect where its motion leads, and a frame on the way there does not
    -- change that place
    have hbegun := h.landed
    rw [landedAll_append, landedAll_of_land_eq_id hstill] at hbegun ⊢
    change landedAll cs' (c.landed s) = _ at hbegun
    change landedAll cs' (Chain.landed _ _) = _
    rw [landedAll_of_land_eq_id hstill'] at hbegun ⊢
    rw [c.step_landed hpart rfl, hbegun]
    cases c.entering? false with
    | none => simp
    | some b => simp [Stage.enact, Deed.work]

/-- Where all chains are completed, what was done is what the program enacts, as there is nothing
left to be put behind it. -/
theorem InTurn.enacts {chains : List Chain} (h : InTurn score set chains s deeds)
    (hall : ∀ c ∈ chains, c.ending? = some .completed) :
    score.program.Enacts set score.program.starts (deeds.map Deed.work) := by
  have hnothing : score.program.Left (chains ++ []) [] :=
    (Program.left_append fun c hc => h.ended c hc _ (hall c hc)).mpr rfl
  rw [List.append_nil] at hnothing
  have hleft := h.left [] hnothing
  rwa [List.append_nil] at hleft

/-- **A run keeps its chains in turn** as long as it is not called off. It is kept together with the
tally, by which the score is known to be the program's own. -/
theorem account_inTurn (score : Score) (set : Stage) (number : Nat)
    (hpart : score.repertoire.IsPartOf .builtin) : Run.Account fun r s off signals deeds =>
      Run.Tally number score .sequential r s off signals deeds ∧
        (off = false → InTurn score set r.chains s deeds) where
  stop h := ⟨(Run.account_tally number score .sequential hpart).stop h.1, fun hoff => nomatch hoff⟩
  chain := by
    intro r s off signals deeds i h
    refine ⟨(Run.account_tally number score .sequential hpart).chain i h.1, ?_⟩
    rintro rfl
    have hturn := h.2 rfl
    refine r.step_cases false s i (motive := fun after deed? =>
      InTurn score set after.1.chains after.2.1 (deeds ++ deed?.toList)) ?idle ?acting
    -- nothing happens
    case idle => exact fun _ => by simpa only [Option.toList_none, List.append_nil] using hturn
    case acting =>
      rintro cs c cs' cs'' hchains rfl hmay hclocks
      -- the chain may act, so those before it are completed
      have hbefore : ∀ d ∈ cs, d.ending? = some .completed := by
        intro d hd
        obtain ⟨j, hj⟩ := List.mem_iff_getElem?.mp hd
        have hlt : j < cs.length := (List.getElem?_eq_some_iff.mp hj).1
        refine (Run.mayAct_of_sequential h.1.scheduling_eq).mp hmay j d hlt ?_
        rw [hchains, List.getElem?_append_left hlt, hj]
      rw [hchains] at hturn
      have hafter := hturn.step r.operations hpart hbefore
      rw [← inTurn_unclocked, List.map_append, List.map_cons] at hafter ⊢
      rw [h.1.score_eq, hclocks]
      exact hafter

end InTurn

/-! ### The meaning of a run -/

/-- **A run that is reported completed did what its program says**, where its chains had their turns
one after the other and it knew no more than some kinds of the language. The blocks that it carried
out are those that the program enacts, and the report counts them; those of unknown kinds, and no
others, were announced; and the stage is the fresh one after the effect of each block, in order. -/
theorem Engine.sequential_run_enacts {e : Engine} (hidle : e.guard.held = false)
    (hscheduling : e.scheduling = .sequential) (hpart : e.repertoire.IsPartOf .builtin) (p : Project)
    (clock : Nat) (turns : List Turn) {n : Nat}
    (hcompleted : (e.perform p clock turns).result? = some (.report ⟨.completed, n⟩)) :
    p.program.Enacts (.set p.actors p.backdrop) p.program.starts
        ((e.perform p clock turns).deeds.map Deed.work) ∧
      n = (e.perform p clock turns).deeds.length ∧
      unknowns (e.perform p clock turns).signals =
        (e.perform p clock turns).deeds.filterMap (fun d => e.repertoire.unknown? d.block) ∧
      (e.perform p clock turns).engine.stage.stage =
        (Stage.set p.actors p.backdrop).enact e.repertoire
          ((e.perform p clock turns).deeds.map Deed.work) := by
  have hstarts : p.program.starts ≠ [] := by
    intro hnothing
    have hresult := (perform_of_nothing hidle p clock hnothing turns).1
    exact absurd (hresult.symm.trans hcompleted) (by simp)
  let score : Score := ⟨p.program, e.repertoire, e.interval⟩
  have hbegin : InTurn score (.set p.actors p.backdrop) _ _ [] := inTurn_ofStart clock
  obtain ⟨r, off, signals, ⟨htally, hturn⟩, hunknowns, hresult, -⟩ :=
    account_perform (account_inTurn score _ (e.guard.number + 1) hpart) hidle hstarts
      ⟨⟨rfl, rfl, hscheduling, rfl, rfl⟩, fun _ => hbegin⟩ turns
  obtain ⟨rfl, rfl, hall⟩ := Run.result?_eq_completed.mp (hresult.symm.trans hcompleted)
  have hend := hturn rfl
  -- nothing is left to do, and no motion to finish
  have hscripts : ∀ c ∈ r.chains, c.script = [] := fun c hc => hend.ended c hc _ (hall c hc)
  have hnothing : p.program.Left (r.chains ++ []) [] := (Program.left_append hscripts).mpr rfl
  rw [List.append_nil] at hnothing
  have hleft := hend.left [] hnothing
  have hlanded := hend.landed
  rw [landedAll_of_land_eq_id fun c hc => Chain.land_of_ending?_eq_some (hall c hc)] at hlanded
  rw [List.append_nil] at hleft
  exact ⟨hleft, htally.operations_eq, hunknowns.trans htally.unknowns_eq, hlanded⟩

/-- Three chains one after the other, with turns that come too early or too late, and a call for
another run in between. -/
def Engine.sampleRun : Engine.Performance :=
  (Engine.sample .sequential).perform .sample 0
    (.chain 2 :: List.replicate 30 (.chain 0) ++ .ask .sample 7 :: List.replicate 9 (.chain 1)
      ++ .chain 0 :: List.replicate 9 (.chain 2))

/-- The sample is completed in this order of turns: it carries out ten blocks, which are those that
its program enacts, announces the one of an unknown kind, and leaves both actors where the blocks
have put them. -/
theorem Engine.sampleRun_enacts :
    Engine.sampleRun.result? = some (.report ⟨.completed, 10⟩) ∧
      Project.sample.program.Enacts (.set Project.sample.actors Project.sample.backdrop)
        Project.sample.program.starts (Engine.sampleRun.deeds.map Deed.work) ∧
      10 = Engine.sampleRun.deeds.length ∧
      unknowns Engine.sampleRun.signals =
        Engine.sampleRun.deeds.filterMap (fun d => Repertoire.builtin.unknown? d.block) ∧
      Engine.sampleRun.engine.stage.stage =
        (Stage.set Project.sample.actors Project.sample.backdrop).enact .builtin
          (Engine.sampleRun.deeds.map Deed.work) := by
  have hcompleted : Engine.sampleRun.result? = some (.report ⟨.completed, 10⟩) := by decide +kernel
  refine ⟨hcompleted, ?_⟩
  unfold Engine.sampleRun at hcompleted ⊢
  exact Engine.sequential_run_enacts (e := .sample .sequential) rfl rfl (.refl _) .sample 0 _
    hcompleted

end StagePlay
