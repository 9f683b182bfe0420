import StagePlay.Proofs.Chain.Way
import StagePlay.Proofs.Run.Outline
import StagePlay.Proofs.Run.Sequential

/-!
# Runs that come to their end

When does a run end by itself, if its chains have their turns one after the other and every timer
fires at last? The answer is in the program alone: the run ends if and only if no cycle of edges can
be come to from the start blocks (`Program.Acyclic`), and then it has counted the weights of the
start blocks (`Program.IsWeight`).

* `Run.Subsides` — a run whose chains, each in its turn, take it to its end, whatever happens to the
  stage in between; `Run.subsides_of_waits` puts the chains that subside one behind the other;
* `Turn.Fair` — turns for ever, without a stop, among which each chain comes again and again;
* `Engine.Along` — an engine whose run has come some steps along its way. Fair turns lead as far
  along the way as one wants, up to its end (`Engine.exists_along`);
* `Engine.run_ends_iff_acyclic`: the result.

In the other direction nothing is to be said of time: what a completed run carried out is what its
program enacts, so its start blocks unfold, and what unfolds has no cycle.
-/

namespace StagePlay

namespace Run

/-! ### Chains one behind the other -/

/-- A chain that has not begun, whose way comes to an end. That it comes to an end is a matter of
its script and of the program; nothing else is asked, for the stage on which it will begin is not
known yet. -/
def Waits (p : Program) (c : Chain) : Prop :=
  c.state = .walking ∧ p.Halts (fun _ => true) c.script

theorem waits_of_unclocked_eq {p : Program} {cs cs' : List Chain}
    (h : cs'.map Chain.unclocked = cs.map Chain.unclocked) (hcs : ∀ c ∈ cs, Waits p c) :
    ∀ c ∈ cs', Waits p c := by
  refine forall_of_unclocked_eq ?_ h hcs
  rintro c c' heq ⟨hstate, hscript⟩
  have hstate' : c'.state = c.state := (congrArg Chain.state heq :)
  have hscript' : c'.script = c.script := (congrArg Chain.script heq :)
  exact ⟨hstate'.trans hstate, hscript' ▸ hscript⟩

/-- **A run that comes to its end** by steps of the chains whose turn it is, whatever happens to the
stage in between. As for a single chain this is well-foundedness, since the number of steps depends
on what happens to the stage. -/
def Subsides : Run → Prop :=
  Acc fun r' r => r.result? false = none ∧ ∃ s, (r.step false s r.lead).1 = r'

theorem subsides_of_over {r : Run} (h : (r.result? false).isSome) : r.Subsides :=
  .intro _ fun _ hstep => absurd h (by rw [hstep.1]; exact Bool.false_ne_true)

section Sequential

variable {r : Run} {done cs : List Chain} {c : Chain}
  (hscheduling : r.scheduling = .sequential) (hchains : r.chains = done ++ c :: cs)
  (hdone : ∀ d ∈ done, d.ending? = some .completed)

include hscheduling hchains hdone

/-- A run is over where a chain has ended without being completed, as the chains behind it will not
have a turn. -/
theorem result?_of_ending {how : Ending} (hending : c.ending? = some how)
    (hhow : how ≠ .completed) : (r.result? false).isSome := by
  -- the chain is the first one that is not completed
  have hfind : r.chains.find? (fun c => c.ending? ≠ some .completed) = some c := by
    rw [hchains, List.find?_append, List.find?_eq_none.mpr fun d hd => by simp [hdone d hd],
      List.find?_cons_of_pos (by simpa [hending] using hhow)]
    rfl
  unfold result?
  rw [hscheduling]
  dsimp only
  rw [hfind]
  dsimp only
  rw [hending]
  cases how with
  | completed => exact absurd rfl hhow
  | cancelled | broken => rfl

/-- **The turn is that of the first chain that is not completed**, and the others stay as they are,
but for a clock. -/
theorem step_lead (hending : c.ending? = none) (s : Stage) :
    ∃ cs', (r.step false s r.lead).1.chains =
        done ++ (c.step r.score ⟨s, r.operations, false⟩).1 :: cs' ∧
      cs'.map Chain.unclocked = cs.map Chain.unclocked := by
  have hc : r.chains[done.length]? = some c := by
    rw [hchains, List.getElem?_append_right (Nat.le_refl _), Nat.sub_self]
    rfl
  have hbefore : ∀ j d, j < done.length → r.chains[j]? = some d → d.ending? = some .completed := by
    intro j d hj hd
    rw [hchains, List.getElem?_append_left hj] at hd
    exact hdone d (List.mem_of_getElem? hd)
  -- the chain is the first one that is not completed, and so the one whose turn it is
  have hlead : r.lead = done.length := by
    obtain ⟨hlt, hget⟩ := List.getElem?_eq_some_iff.mp hc
    refine (List.findIdx_eq hlt).mpr ⟨by simp [hget, hending], fun j hj => ?_⟩
    have hcompleted := hbefore j _ hj (List.getElem?_eq_getElem (Nat.lt_trans hj hlt))
    simp [hcompleted]
  have hmay : r.mayAct done.length = true := (mayAct_of_sequential hscheduling).mpr hbefore
  obtain ⟨cs', hput, hclocks⟩ := put_eq hchains (c.step r.score ⟨s, r.operations, false⟩).1
  refine ⟨cs', ?_, hclocks⟩
  rw [hlead]
  unfold step
  rw [hc]
  simp only [hmay, if_true]
  exact hput

end Sequential

/-- **A run subsides** if its chains do, one behind the other. The outer induction is on the number
of chains that have not begun, the inner one on the steps of the first of them, which subsides by
itself (`Chain.subsides_of_halts`). -/
theorem subsides_of_waits {score : Score} (hpart : score.repertoire.IsPartOf .builtin) {r : Run}
    {done cs : List Chain} (hscheduling : r.scheduling = .sequential) (hscore : r.score = score)
    (hchains : r.chains = done ++ cs) (hdone : ∀ d ∈ done, d.ending? = some .completed)
    (hcs : ∀ c ∈ cs, Waits score.program c) : r.Subsides := by
  -- on the number of chains that wait, and in it on the steps of the first of them
  generalize hlength : cs.length = n
  induction n generalizing r done cs with
  | zero =>
    -- all chains are completed
    obtain rfl := List.length_eq_zero_iff.mp hlength
    rw [List.append_nil] at hchains
    refine subsides_of_over ?_
    rw [result?_eq_completed.mpr ⟨rfl, rfl, hchains ▸ hdone⟩]
    rfl
  | succ n ih =>
    obtain ⟨c, cs, rfl⟩ := List.exists_cons_of_length_eq_add_one hlength
    have hn : cs.length = n := Nat.succ.inj hlength
    obtain ⟨hstate, hhalts⟩ := hcs c List.mem_cons_self
    have hc : c.Subsides score := Chain.subsides_of_halts hpart hhalts c rfl hstate
    have hwaits : ∀ d ∈ cs, Waits score.program d := fun d hd => hcs d (List.mem_cons_of_mem c hd)
    clear hcs hstate hhalts hlength
    induction hc generalizing r cs with
    | intro c _ ihc =>
      cases hending : c.ending? with
      | none =>
        -- the first chain has its turn, and those behind it wait as before
        refine .intro _ ?_
        rintro _ ⟨-, s, rfl⟩
        obtain ⟨cs', hchains', hclocks⟩ := step_lead hscheduling hchains hdone hending s
        rw [hscore] at hchains'
        have hlength' : cs'.length = n := by
          rw [← hn, ← List.length_map (f := Chain.unclocked), hclocks, List.length_map]
        exact ihc _ ⟨hending, _, rfl, rfl⟩ ((scheduling_step _ _ _ _).trans hscheduling)
          ((score_step _ _ _ _).trans hscore) cs' hchains' hlength'
          (waits_of_unclocked_eq hclocks hwaits)
      | some how =>
        by_cases hhow : how = .completed
        · -- it is the turn of the next one
          subst hhow
          have hdone' : ∀ d ∈ done ++ [c], d.ending? = some .completed := by
            intro d hd
            rcases List.mem_append.mp hd with hd | hd
            · exact hdone d hd
            · exact (List.mem_singleton.mp hd) ▸ hending
          exact ih hscheduling hscore (by simpa using hchains) hdone' hwaits hn
        -- a chain that ended in another way ends the run
        · exact subsides_of_over (result?_of_ending hscheduling hchains hdone hending hhow)

/-- A run that subsides is over after some number of its own steps, with the stage as those steps
leave it. -/
theorem Subsides.exists_end {r : Run} (h : r.Subsides) (s : Stage) :
    ∃ n, ((r.advance s n).1.result? false).isSome := by
  -- for any run on the way, by induction on what is left of it
  suffices hon : ∀ r' : Run, r'.Subsides → ∀ n, (r.advance s n).1 = r' →
      ∃ n, ((r.advance s n).1.result? false).isSome from hon r h 0 rfl
  intro r' h'
  induction h' with
  | intro r' _ ih =>
    rintro n rfl
    cases hresult : (r.advance s n).1.result? false with
    | some result => exact ⟨n, by rw [hresult]; rfl⟩
    | none => exact ih _ ⟨hresult, _, rfl⟩ (n + 1) rfl

/-- **The way of a run has an end** if its program is acyclic. -/
theorem exists_end_of_acyclic {score : Score} (hpart : score.repertoire.IsPartOf .builtin)
    (hacyclic : score.program.Acyclic) (number clock : Nat) (s : Stage) :
    ∃ n, (((ofScore number score .sequential s clock).advance s n).1.result? false).isSome := by
  let r := ofScore number score .sequential s clock
  -- the start blocks of an acyclic program unfold, so the way of each chain has an end
  have hwaits : ∀ c ∈ r.chains, Waits score.program c := by
    intro c hc
    obtain ⟨b, hb, rfl⟩ := List.mem_map.mp hc
    obtain ⟨l, hl⟩ := Program.acyclic_iff.mp hacyclic b hb
    exact ⟨rfl, Program.halts_iff_performs.mpr ⟨_, Program.performs_nil.cons (t := .enter b) hl⟩⟩
  have hsubsides : r.Subsides :=
    subsides_of_waits hpart rfl rfl (List.nil_append _).symm (fun _ h => nomatch h) hwaits
  exact hsubsides.exists_end s

/-! ### Ends that are completed -/

/-- **A run of the language that is not called off completes its chains.** -/
theorem account_completed {score : Score} (hpart : score.repertoire.IsPartOf .builtin) :
    Run.Account fun r _ off _ _ => r.score = score ∧
      (off = false → ∀ c ∈ r.chains, ∀ how, c.ending? = some how → how = .completed) where
  stop h := ⟨h.1, fun hoff => nomatch hoff⟩
  chain := by
    rintro r s off _ _ i ⟨hscore, hcompleted⟩
    refine ⟨(r.score_step off s i).trans hscore, ?_⟩
    rintro rfl
    exact completed_step (by rw [hscore]; exact hpart) s (hcompleted rfl) i

end Run

/-! ### Fair turns -/

/-- **Turns for ever that leave no chain out**, of so many chains: none of them is a stop, and each
chain has its turn again and again. So every timer that a chain waits for fires at last. -/
structure Turn.Fair (count : Nat) (turns : Nat → Turn) : Prop where
  unstopped : ∀ n, turns n ≠ .stop
  comes : ∀ i < count, ∀ n, ∃ m, n ≤ m ∧ turns m = .chain i

/-- The first ones of some turns. -/
def Turn.first (turns : Nat → Turn) (n : Nat) : List Turn := (List.range n).map turns

theorem Turn.Fair.stop_not_mem {count : Nat} {turns : Nat → Turn} (h : Turn.Fair count turns)
    (n : Nat) : .stop ∉ Turn.first turns n := by
  intro hmem
  obtain ⟨m, -, hm⟩ := List.mem_map.mp hmem
  exact h.unstopped m hm

/-- Turns of so many chains, round and round, the plainest of the fair ones. -/
def Turn.round (count : Nat) (n : Nat) : Turn := .chain (n % count)

theorem Turn.fair_round (count : Nat) : Turn.Fair count (Turn.round count) where
  unstopped _ := nofun
  comes := by
    intro i hi n
    refine ⟨n * count + i, ?_, ?_⟩
    · exact Nat.le_add_right_of_le (Nat.le_mul_of_pos_right n (Nat.zero_lt_of_lt hi))
    · rw [round, Nat.mul_comm, Nat.mul_add_mod, Nat.mod_eq_of_lt hi]

/-- No step adds a chain to a run or takes one away. -/
theorem Run.length_chains_step (r : Run) (off : Bool) (s : Stage) (i : Nat) :
    (r.step off s i).1.chains.length = r.chains.length := by
  refine r.step_cases off s i (motive := fun after _ => after.1.chains.length = r.chains.length)
    (fun _ => rfl) fun cs c cs' cs'' hchains _ _ hclocks => ?_
  have hlength := congrArg List.length hclocks
  rw [List.length_map, List.length_map] at hlength
  rw [hchains]
  simp only [List.length_append, List.length_cons, hlength]

theorem Run.length_chains_advance (r : Run) (s : Stage) (n : Nat) :
    (r.advance s n).1.chains.length = r.chains.length := by
  induction n with
  | zero => rfl
  | succ n ih => exact (length_chains_step _ _ _ _).trans ih

/-- As long as a run is not over, it is the turn of one of its chains. -/
theorem Run.lead_lt {r : Run} (h : r.result? false = none) : r.lead < r.chains.length := by
  refine List.findIdx_lt_length.mpr ?_
  by_contra hnone
  have hall : ∀ c ∈ r.chains, c.ending? = some .completed := by
    intro c hc
    by_contra hnot
    exact hnone ⟨c, hc, by simpa using hnot⟩
  rw [result?_eq_completed.mpr ⟨rfl, rfl, hall⟩] at h
  exact absurd h (by simp)

/-! ### What a program enacts -/

/-- What a program enacts is what its start blocks unfold to, so they unfold. -/
theorem Program.Enacts.unfolds {p : Program} {stage : Stage} {bs : List Block} {ws : List Work}
    (h : p.Enacts stage bs ws) : ∀ b ∈ bs, ∃ l, p.Unfolds (.chain b) l := by
  induction h with
  | nil => exact fun _ hb => nomatch hb
  | cons hchain _ ih =>
    intro b hb
    rcases List.mem_cons.mp hb with rfl | hb
    · exact ⟨_, hchain⟩
    · exact ih b hb

/-- **A program enacts as much as its start blocks weigh.** -/
theorem Program.Enacts.length_eq {p : Program} {stage : Stage} {bs : List Block} {ws : List Work}
    (h : p.Enacts stage bs ws) {W : Block → Nat} (hW : p.IsWeight W) (hbs : ∀ b ∈ bs, p.Comes b) :
    ws.length = (bs.map W).sum := by
  induction h with
  | nil => rfl
  | cons hchain _ ih =>
    rw [List.length_append, List.length_map, List.map_cons, List.sum_cons,
      hW.eq_length (hbs _ List.mem_cons_self) hchain,
      ih fun b hb => hbs b (List.mem_cons_of_mem _ hb)]

namespace Engine

/-- **An engine whose run has come so many steps along its way.** The way is that of the run by
itself (`Run.advance`), with each step taken by the chain whose turn it is; what other turns have
done to the clocks is not looked at (`Run.outline`). -/
structure Along (e : Engine) (r₀ : Run) (s₀ : Stage) (n : Nat) : Prop where
  performing : ∃ r, e.Performing r ∧ r.outline = (r₀.advance s₀ n).1.outline
  stage_eq : e.stage.stage = (r₀.advance s₀ n).2.1
  calledOff_eq : e.guard.calledOff = false

section Along

variable {e : Engine} {r₀ : Run} {s₀ : Stage} {n : Nat}

/-- A turn of the chain whose turn it is leads one step further. -/
theorem Along.turn_lead (h : e.Along r₀ s₀ n) :
    (e.turn (.chain (r₀.advance s₀ n).1.lead)).1.Along r₀ s₀ (n + 1) := by
  obtain ⟨r, hr, houtline⟩ := h.performing
  obtain ⟨hperforming, hguard, hstage⟩ := hr.step (r₀.advance s₀ n).1.lead
  rw [h.calledOff_eq, h.stage_eq] at hperforming hstage
  obtain ⟨hafter, hdone⟩ :=
    Run.step_congr houtline false (r₀.advance s₀ n).2.1 (r₀.advance s₀ n).1.lead
  refine ⟨⟨_, hperforming, hafter⟩, ?_, ?_⟩
  · rw [turn_chain, hstage, hdone]
    rfl
  · rw [turn_chain, hguard, h.calledOff_eq]

/-- Any other turn leaves the run where it is, unless it is a stop: a request is ignored, and a
chain whose turn it is not does nothing. -/
theorem Along.turn_other (hscheduling : r₀.scheduling = .sequential) (h : e.Along r₀ s₀ n)
    {t : Turn} (hstop : t ≠ .stop) (hlead : t ≠ .chain (r₀.advance s₀ n).1.lead) :
    (e.turn t).1.Along r₀ s₀ n := by
  obtain ⟨r, hr, houtline⟩ := h.performing
  cases t with
  | stop => exact absurd rfl hstop
  | ask p clock =>
    -- a request is ignored while a run is going on
    rw [turn_ask, hr.start_eq]
    exact h
  | chain i =>
    have hr' : r.scheduling = .sequential :=
      (Run.outline_eq_iff.mp houtline).2.1.trans (Run.scheduling_advance hscheduling n)
    have hi : i ≠ r.lead := fun heq => hlead (by rw [heq, Run.lead_congr houtline])
    obtain ⟨hstay, hnothing⟩ := Run.step_of_ne_lead hr' e.guard.calledOff e.stage.stage hi
    obtain ⟨hperforming, hguard, hstage⟩ := hr.step i
    refine ⟨⟨_, hperforming, hstay.trans houtline⟩, ?_, ?_⟩
    · rw [turn_chain, hstage, hnothing]
      exact h.stage_eq
    · rw [turn_chain, hguard, h.calledOff_eq]

/-- One more turn of those that come. -/
theorem play_first_succ (e : Engine) (turns : Nat → Turn) (m : Nat) :
    (e.play (Turn.first turns (m + 1))).engine =
      ((e.play (Turn.first turns m)).engine.turn (turns m)).1 := by
  unfold Turn.first
  rw [List.range_succ, List.map_append, play_append]
  rfl

/-- **Fair turns lead along the way of a run**, as far as it is not over. From each place of the way
on, some turn is that of the chain whose turn it is, and until then the run stays at that place. -/
theorem exists_along (hscheduling : r₀.scheduling = .sequential) (h : e.Along r₀ s₀ 0)
    {turns : Nat → Turn} (hfair : Turn.Fair r₀.chains.length turns)
    (hover : ∀ k < n, (r₀.advance s₀ k).1.result? false = none) :
    ∃ m, (e.play (Turn.first turns m)).engine.Along r₀ s₀ n := by
  induction n with
  | zero => exact ⟨0, h⟩
  | succ n ih =>
    obtain ⟨m, hm⟩ := ih fun k hk => hover k (Nat.lt_succ_of_lt hk)
    -- it is the turn of one of the chains, and its turn comes at some time after `m`
    have hlead : (r₀.advance s₀ n).1.lead < r₀.chains.length := by
      rw [← r₀.length_chains_advance s₀ n]
      exact Run.lead_lt (hover n (Nat.lt_succ_self n))
    obtain ⟨m', hle, hturn⟩ := hfair.comes _ hlead m
    obtain ⟨d, rfl⟩ := Nat.exists_eq_add_of_le hle
    clear hle
    -- the turns until then change nothing, or one of them is the step already
    induction d generalizing m with
    | zero =>
      refine ⟨m + 1, ?_⟩
      rw [play_first_succ, show turns m = _ from hturn]
      exact hm.turn_lead
    | succ d ihd =>
      by_cases hnow : turns m = .chain (r₀.advance s₀ n).1.lead
      · refine ⟨m + 1, ?_⟩
        rw [play_first_succ, hnow]
        exact hm.turn_lead
      -- this turn was another one, and the one that is waited for is nearer now
      · refine ihd (m + 1) ?_ (by rwa [Nat.add_assoc, Nat.add_comm 1 d])
        rw [play_first_succ]
        exact hm.turn_other hscheduling (hfair.unstopped m) hnow

end Along

/-! ### The end of a run -/

section Ends

variable {e : Engine} (hidle : e.guard.held = false) (hscheduling : e.scheduling = .sequential)
  (hpart : e.repertoire.IsPartOf .builtin) (p : Project) (clock : Nat)
  (hstarts : p.program.starts ≠ [])

include hidle hscheduling hpart hstarts

/-- **A run of an acyclic program ends**, if its turns are fair: its way has an end, and fair turns
lead to the first one on it. -/
theorem exists_result_of_acyclic (hacyclic : p.program.Acyclic) {turns : Nat → Turn}
    (hfair : Turn.Fair p.program.starts.length turns) :
    ∃ n, (e.perform p clock (Turn.first turns n)).result?.isSome := by
  let score : Score := ⟨p.program, e.repertoire, e.interval⟩
  have hstart := start_of_idle hidle p clock hstarts
  -- the engine begins at the beginning of the way
  have hbegun : (e.start p clock).1.Along (e.firstRun p clock) (.set p.actors p.backdrop) 0 := by
    refine ⟨⟨_, performing_start hidle p clock hstarts, rfl⟩, ?_, ?_⟩
    · rw [hstart]
      rfl
    · rw [hstart]
  have hsame : e.firstRun p clock =
      .ofScore (e.guard.number + 1) score .sequential (.set p.actors p.backdrop) clock := by
    rw [firstRun, hscheduling]
  have hpart' : score.repertoire.IsPartOf .builtin := hpart
  -- and the way has an end
  have hends := Run.exists_end_of_acyclic hpart' hacyclic (e.guard.number + 1) clock
    (.set p.actors p.backdrop)
  rw [← hsame] at hends
  have hlength : (e.firstRun p clock).chains.length = p.program.starts.length := List.length_map _
  -- the first end on the way
  obtain ⟨m, hm⟩ := exists_along (n := Nat.find hends) hscheduling hbegun (hlength ▸ hfair)
    fun k hk => by simpa using Nat.find_min hends hk
  obtain ⟨r, hr, houtline⟩ := hm.performing
  refine ⟨m, ?_⟩
  rw [perform_of_idle hidle hstarts]
  dsimp only
  rw [hr.conclude_eq.2.2, hm.calledOff_eq, Run.result?_congr houtline]
  exact Nat.find_spec hends

/-- **A run that ends without a stop** is completed, its start blocks unfold, and it has counted as
many operations as they unfold to. -/
theorem result_of_unstopped {turns : List Turn} (hstop : .stop ∉ turns) {result : Result}
    (hresult : (e.perform p clock turns).result? = some result) :
    ∃ ws, p.program.Enacts (.set p.actors p.backdrop) p.program.starts ws ∧
      result = .report ⟨.completed, ws.length⟩ := by
  -- the chains of the run act in turn, and none of them gives up
  let score : Score := ⟨p.program, e.repertoire, e.interval⟩
  have hbegin : InTurn score (.set p.actors p.backdrop) _ _ [] := inTurn_ofStart clock
  have hfirst : ∀ c ∈ (e.firstRun p clock).chains, c.ending? = none := by
    intro c hc
    obtain ⟨b, -, rfl⟩ := List.mem_map.mp hc
    rfl
  have hpart' : score.repertoire.IsPartOf .builtin := hpart
  have hkept := (account_inTurn score (.set p.actors p.backdrop) (e.guard.number + 1) hpart').and
    (Run.account_completed hpart')
  obtain ⟨r, off, signals, ⟨⟨htally, hturn⟩, -, hcompleted⟩, -, hend, hoff⟩ :=
    account_perform hkept hidle hstarts ⟨⟨⟨rfl, rfl, hscheduling, rfl, rfl⟩, fun _ => hbegin⟩, rfl,
      fun _ c hc how hhow => absurd (hhow.symm.trans (hfirst c hc)) (by simp)⟩ turns
  -- as nobody has stopped the run, its chains are completed if they have ended
  obtain rfl := hoff hstop
  obtain ⟨rfl, hall⟩ := Run.result?_of_completed (hcompleted rfl) (hend.symm.trans hresult)
  refine ⟨_, (hturn rfl).enacts hall, ?_⟩
  rw [htally.operations_eq, List.length_map]

/-- **A run ends by itself exactly where its program is acyclic**, if its chains have their turns
one after the other, nobody calls it off, and every timer fires at last. The blocks of an acyclic
program have weights, and a run that ends is completed and has counted the weights of the start
blocks. -/
theorem run_ends_iff_acyclic {turns : Nat → Turn}
    (hfair : Turn.Fair p.program.starts.length turns) :
    ((∃ n, (e.perform p clock (Turn.first turns n)).result?.isSome) ↔ p.program.Acyclic) ∧
      (p.program.Acyclic → ∃ W, p.program.IsWeight W) ∧
      ∀ n result W, (e.perform p clock (Turn.first turns n)).result? = some result →
        p.program.IsWeight W → result = .report ⟨.completed, (p.program.starts.map W).sum⟩ := by
  refine ⟨⟨?_, ?_⟩, Program.Acyclic.exists_isWeight, ?_⟩
  · -- what a run that ended carried out is what its program unfolds to
    rintro ⟨n, hsome⟩
    obtain ⟨result, hresult⟩ := Option.isSome_iff_exists.mp hsome
    obtain ⟨ws, hws, -⟩ := result_of_unstopped hidle hscheduling hpart p clock hstarts
      (hfair.stop_not_mem n) hresult
    exact Program.acyclic_iff.mpr hws.unfolds
  · exact fun hacyclic =>
      exists_result_of_acyclic hidle hscheduling hpart p clock hstarts hacyclic hfair
  · intro n result W hresult hW
    obtain ⟨ws, hws, rfl⟩ := result_of_unstopped hidle hscheduling hpart p clock hstarts
      (hfair.stop_not_mem n) hresult
    rw [hws.length_eq hW fun b hb => ⟨b, hb, .refl⟩]

end Ends

/-- The sample project, with turns round and round: it ends with ten operations, it is acyclic, and
its start blocks weigh ten. -/
theorem sample_ends :
    ((Engine.sample .sequential).perform .sample 0 (Turn.first (Turn.round 3) 140)).result? =
        some (.report ⟨.completed, 10⟩) ∧
      Project.sample.program.Acyclic ∧
      ∃ W, Project.sample.program.IsWeight W ∧ (Project.sample.program.starts.map W).sum = 10 := by
  have hresult : ((Engine.sample .sequential).perform .sample 0
      (Turn.first (Turn.round 3) 140)).result? = some (.report ⟨.completed, 10⟩) := by
    decide +kernel
  -- the theorem, read in both directions: from the end to the weights
  obtain ⟨hiff, hweight, hreport⟩ := run_ends_iff_acyclic (e := .sample .sequential) rfl rfl
    (.refl _) .sample 0 (by decide +kernel) (Turn.fair_round 3)
  have hacyclic : Project.sample.program.Acyclic :=
    hiff.mp ⟨140, Option.isSome_iff_exists.mpr ⟨_, hresult⟩⟩
  obtain ⟨W, hW⟩ := hweight hacyclic
  refine ⟨hresult, hacyclic, W, hW, ?_⟩
  simpa using (hreport 140 _ W hresult hW).symm

end Engine

end StagePlay
