import StagePlay.Proofs.Engine.Turns
import StagePlay.Proofs.Program.Tags

/-!
# Tags in a run

A run carries out blocks of its program only: a chain begins with one of the start blocks, and looks
up every other block that it comes to. What is known of the blocks of a program that was read is
known of all blocks that a run of it carries out.

* `Chain.enter_mem_step` — a step writes no block into a script but one that was looked up;
* `Run.Drawn`, `Run.account_drawn` — whatever is carried out, and whatever is still to be, is a
  block of the program;
* `Engine.tags_agree`: the result. The tags of the language are read, written and looked up alike.
  So a run of a program that was read announces just the blocks with custom operations, and the
  blocks that begin chains and repeat bodies are just those whose routine does nothing.
-/

namespace StagePlay

/-! ### Blocks in a script -/

namespace Chain

variable {b : Block}

/-- Children and successors are entered into a script by their ids alone: they are still to be
looked up. -/
theorem enter_mem_visits {ids : List String} {ts : List Task}
    (h : .enter b ∈ ids.map Task.visit ++ ts) : .enter b ∈ ts := by
  simpa using h

/-- The rounds of a block are no block to be carried out either. -/
theorem enter_mem_rounds {d : Block} {n : Nat} {ts : List Task}
    (h : .enter b ∈ .rounds d n :: ts) : .enter b ∈ ts := by
  simpa using h

/-- Whether a chain goes on, rests or ends after a block, its script is the one that follows or the
one that it had. -/
theorem enter_mem_lapse {c : Chain} {interval : Duration} {ts : List Task} {l : Lapse}
    (h : .enter b ∈ (c.lapse interval ts l).script) : .enter b ∈ c.script ∨ .enter b ∈ ts := by
  cases l with
  | goOn | pause | animate => exact .inr h
  | giveUp | breakDown => exact .inl h

/-- **The blocks in a script** are those that were in it before, and those that are looked up. Only
one kind of step writes a block into a script, the one that finds the block of an id in the program;
all others shorten the script, leave it alone, or add ids that are to be looked up. -/
theorem enter_mem_step {c : Chain} {score : Score} {scene : Scene}
    (h : .enter b ∈ (c.step score scene).1.script) :
    .enter b ∈ c.script ∨ ∃ id, score.program.find? id = some b := by
  revert h
  -- what is behind the first task was in the script
  have hrest : ∀ {t : Task} {ts : List Task}, c.script = t :: ts → .enter b ∈ ts →
      .enter b ∈ c.script := fun hscript h => hscript ▸ List.mem_cons_of_mem _ h
  -- a block that was looked up, in front of what was behind the id
  have hfound : ∀ {id : String} {d : Block} {ts : List Task}, c.script = .visit id :: ts →
      score.program.find? id = some d → .enter b ∈ .enter d :: ts →
      .enter b ∈ c.script ∨ ∃ id, score.program.find? id = some b := by
    intro id d ts hscript hid h
    rcases List.mem_cons.mp h with heq | h
    · cases heq
      exact .inr ⟨id, hid⟩
    · exact .inl (hrest hscript h)
  cases hcalled : scene.cancelled with
  | true =>
    -- called off, a chain still finds its way, and does nothing else to its script
    refine c.step_cases_of_cancelled hcalled (motive := fun done => .enter b ∈ done.1.script → _)
      ?ended ?calledOff ?finish ?dangling ?found ?spent
    case ended => exact fun _ _ => .inl
    case calledOff => exact fun _ => .inl
    case finish => exact fun _ _ => .inl
    case dangling => exact fun _ _ _ hscript _ h => .inl (hrest hscript h)
    case found => exact fun _ _ _ _ hscript hid h => hfound hscript hid h
    case spent => exact fun _ _ _ hscript h => .inl (hrest hscript h)
  | false =>
    -- one case for each kind of step
    refine c.step_cases hcalled (motive := fun done _ => .enter b ∈ done.1.script → _)
      ?ended ?pause ?frame ?finish ?enter ?dangling ?found ?spent ?round
    -- these keep the script
    case ended => exact fun _ _ => .inl
    case pause => exact fun _ _ => .inl
    case frame =>
      intro start tween k m _ h
      rw [resume_frame_chain] at h
      exact .inl h
    case finish => exact fun _ _ => .inl
    case enter =>
      -- the rounds, the ids of the successors and the rest of the script
      intro d ts _ hscript h
      rcases enter_mem_lapse h with h | h
      · exact .inl h
      · -- what follows the block is to be looked up
        exact .inl (hrest hscript (enter_mem_visits (enter_mem_rounds h)))
    -- the first task is gone, or replaced by a block that was looked up
    case dangling => exact fun _ _ _ hscript _ h => .inl (hrest hscript h)
    case found => exact fun _ _ _ _ hscript hid h => hfound hscript hid h
    case spent => exact fun _ _ _ hscript h => .inl (hrest hscript h)
    case round =>
      -- the ids of the children, in front of the rounds that are left
      exact fun _ _ _ _ hscript h => .inl (hrest hscript (enter_mem_rounds (enter_mem_visits h)))

/-- What a chain carries out next is in its script, at its head. -/
theorem enter_mem_of_entering? {c : Chain} {off : Bool} (h : c.entering? off = some b) :
    .enter b ∈ c.script := by
  unfold entering? at h
  split at h
  · next hscript =>
    split at h
    · cases h
    · cases h
      rw [hscript]
      exact List.mem_cons_self
  · cases h

/-- A script does not depend on what the clock says. -/
theorem script_of_unclocked_eq {c c' : Chain} (h : c'.unclocked = c.unclocked) :
    c'.script = c.script :=
  (congrArg Chain.script h :)

end Chain

/-! ### The blocks of a run -/

namespace Run

/-- **A run that draws on a program**: all that its chains carry out is there, and all that they are
about to. The second clause is what makes the first an invariant: a block is in a script before it
is carried out. -/
structure Drawn (p : Program) (r : Run) (_s : Stage) (_off : Bool) (_signals : List Signal)
    (deeds : List Deed) : Prop where
  program_eq : r.score.program = p
  scripts : ∀ c ∈ r.chains, ∀ b, .enter b ∈ c.script → p.Has b
  deeds : ∀ d ∈ deeds, p.Has d.block

/-- **A run draws on its program** to its end. A step adds to a script only what was looked up in
the program, and carries out only what was in a script. -/
theorem account_drawn (p : Program) : Account (Drawn p) where
  stop h := ⟨h.program_eq, h.scripts, h.deeds⟩
  chain := by
    intro r s off signals deeds i h
    refine ⟨(congrArg Score.program (r.score_step off s i)).trans h.program_eq,
      forall_chains_step ?clock ?step h.scripts i, fun d hd => ?_⟩
    case clock =>
      -- a clock that is put forward leaves the script as it is
      exact fun heq hscript b hb => hscript b (Chain.script_of_unclocked_eq heq ▸ hb)
    case step =>
      -- the acting chain: what is new in its script was looked up
      intro c hscript b hb
      rcases Chain.enter_mem_step hb with hb | ⟨id, hid⟩
      · exact hscript b hb
      · rw [h.program_eq] at hid
        exact .inr ⟨id, hid⟩
    -- the blocks that were carried out before, and the one that the step carries out
    rcases List.mem_append.mp hd with hd | hd
    · exact h.deeds d hd
    · obtain ⟨c, hc, b, hb, rfl⟩ := of_mem_deed? (Option.mem_toList.mp hd)
      exact h.scripts c (List.mem_of_getElem? hc) b (Chain.enter_mem_of_entering? hb)

/-- A run begins with the start blocks in its scripts, and they are blocks of the program. -/
theorem drawn_ofScore (number : Nat) (score : Score) (scheduling : Scheduling) (s : Stage)
    (clock : Nat) (s' : Stage) (off : Bool) (signals : List Signal) :
    Drawn score.program (ofScore number score scheduling s clock) s' off signals [] := by
  refine ⟨rfl, fun c hc b hb => ?_, nofun⟩
  obtain ⟨start, hstart, rfl⟩ := List.mem_map.mp hc
  obtain rfl : b = start := by simpa [Chain.ofStart] using hb
  exact .of_mem_roots (List.mem_filter.mp hstart).1

end Run

/-! ### The result -/

namespace Engine

/-- **What a run carries out and announces**: blocks of its program, and of these the ones that are
of a kind without a routine. -/
theorem drawn_perform {e : Engine} (hidle : e.guard.held = false)
    (hpart : e.repertoire.IsPartOf .builtin) (p : Project) (clock : Nat) (turns : List Turn) :
    (∀ d ∈ (e.perform p clock turns).deeds, p.program.Has d.block) ∧
      unknowns (e.perform p clock turns).signals =
        (e.perform p clock turns).deeds.filterMap fun d => e.repertoire.unknown? d.block := by
  -- a run without start blocks carries out nothing and announces nothing
  by_cases hstarts : p.program.starts = []
  · have hdeeds : (e.perform p clock turns).deeds = [] := by
      unfold perform
      rw [start_of_idle_of_nothing hidle p clock hstarts]
    rw [(perform_of_nothing hidle p clock hstarts turns).2.2, hdeeds]
    exact ⟨nofun, rfl⟩
  · let score : Score := ⟨p.program, e.repertoire, e.interval⟩
    obtain ⟨r, off, signals, ⟨hdrawn, htally⟩, hunknowns, -⟩ :=
      account_perform ((Run.account_drawn p.program).and
        (Run.account_tally (e.guard.number + 1) score e.scheduling hpart)) hidle hstarts
        ⟨Run.drawn_ofScore _ score _ _ clock _ _ _, rfl, rfl, rfl, rfl, rfl⟩ turns
    exact ⟨hdrawn.deeds, hunknowns.trans htally.unknowns_eq⟩

/-- **The tags of the language agree.** A tag is what is written for the operation that is read for
it, and that is a custom one just where the language has no routine for it. In a program that was
read, the blocks that begin chains and repeat bodies are those whose routine leaves everything to
what follows; and a run of the program announces, in their order, just the blocks that it carries
out whose operation is a custom one. -/
theorem tags_agree {p : Project} (hload : p.program.Loaded) {e : Engine}
    (hidle : e.guard.held = false) (hbuiltin : e.repertoire = .builtin) (clock : Nat)
    (turns : List Turn) :
    (∀ s : String, (Operation.ofTag s).tag = s) ∧
      (∀ s : String,
        (Operation.ofTag s).isCustom = true ↔ Repertoire.builtin.contains s = false) ∧
      (∀ b, p.program.Has b → (b.Begins ∨ b.Repeats ↔
        Repertoire.builtin.find? b.operation.tag = some Routine.structural)) ∧
      (∀ d ∈ (e.perform p clock turns).deeds, p.program.Has d.block) ∧
      unknowns (e.perform p clock turns).signals =
        (e.perform p clock turns).deeds.filterMap fun d => d.block.custom? := by
  have hpart : e.repertoire.IsPartOf .builtin := hbuiltin ▸ .refl _
  obtain ⟨hdeeds, hunknowns⟩ := drawn_perform hidle hpart p clock turns
  refine ⟨Operation.tag_ofTag, Operation.isCustom_ofTag_iff,
    fun b hb => Block.structural_iff (hload.named_eq hb), hdeeds, ?_⟩
  rw [hunknowns, hbuiltin]
  exact List.filterMap_congr fun d hd => Block.unknown?_builtin (hload.named_eq (hdeeds d hd))

end Engine

/-- A project whose only script nods, which nobody knows. -/
def Project.noddingSource : String :=
  "\x7b\"program\":[[\x7b\"id\":\"go\",\"kind\":\"start\",\"next\":\"nod\"\x7d," ++
    "\x7b\"id\":\"nod\",\"kind\":\"nod\"\x7d]]\x7d"

/-- The nod is announced, and the start is not. -/
theorem Engine.nodding_tags_agree :
    (Engine.sample .sequential).guard.held = false ∧
      (Engine.sample .sequential).repertoire = .builtin ∧
      ∃ p, Project.ofJson Project.noddingSource = .ok p ∧
        ((Engine.sample .sequential).perform p 0 (List.replicate 7 (.chain 0))).deeds.length = 2 ∧
        unknowns ((Engine.sample .sequential).perform p 0
          (List.replicate 7 (.chain 0))).signals = [("nod", "nod")] := by
  -- the run evaluated: two blocks are carried out, and one of them is a custom one
  have hdeeds : (Project.ofJson Project.noddingSource).toOption.map (fun p =>
      let done := ((Engine.sample .sequential).perform p 0 (List.replicate 7 (.chain 0))).deeds
      (done.length, done.filterMap fun d => d.block.custom?)) = some (2, [("nod", "nod")]) := by
    decide +kernel
  refine ⟨rfl, rfl, ?_⟩
  cases h : Project.ofJson Project.noddingSource with
  | error e =>
    rw [h] at hdeeds
    cases hdeeds
  | ok p =>
    rw [h] at hdeeds
    obtain ⟨hlength, hnods⟩ := Prod.mk.inj (Option.some.inj hdeeds)
    have hagree := (tags_agree (.inProject h) (e := .sample .sequential) rfl rfl 0
      (List.replicate 7 (.chain 0))).2.2.2.2
    exact ⟨p, rfl, hlength, hagree.trans hnods⟩

end StagePlay
