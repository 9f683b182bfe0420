import Mathlib.Data.List.Basic
import StagePlay.Proofs.Stage.Alter
import StagePlay.Stage.Publication

/-!
# What is seen of a stage

A stage that is watched is more than its last state: there are the observers, each of them
registered at some time, and the viewers, each of whom has seen it up to some edition. An `Audience`
is a stage with all of these, and a `Dealing` is what anyone can do there. Reading the stage is not
among the dealings, since it leaves everything as it is.

What the dealings make of a stage is said without any of the bookkeeping:

* `Dealing.made?` — the state that one dealing makes, if it makes one;
* `Stage.upon` — the state after some dealings;
* `Stage.history` — all the states that they make, in order.

`Audience.Coherent` says that everyone sees this and nothing else, and `Audience.coherent_after`
that it is so after any dealings, from a stage that nobody has seen.
-/

namespace StagePlay

/-- **What can be done with a stage that is watched.** The dealings of a run are here beside those
of the people who look on. -/
inductive Dealing where
  /-- A new roster is put on the stage. -/
  | set (actors : List Actor) (backdrop : Option Backdrop)
  /-- A figure is changed, if there is one of that id. -/
  | change (id : String) (c : Change)
  /-- An observer is registered. -/
  | observe (observer : Nat)
  /-- What the observers were given is collected. -/
  | collect
  /-- A viewer comes to the stage. Viewers are counted. -/
  | subscribe
  /-- A viewer looks at the stage. -/
  | look (viewer : Nat)
  deriving DecidableEq

/-- The state that a dealing makes of a stage, if it makes one. To watch a stage makes no state, and
neither does a change of somebody who is not there. -/
def Dealing.made? (s : Stage) : Dealing → Option Stage
  | set actors backdrop => some (.set actors backdrop)
  | change id c => s.change? id c
  | observe _ | collect | subscribe | look _ => none

namespace Stage

/-- The state of a stage after some dealings, of which only those that make a state count. -/
def upon (s : Stage) (ds : List Dealing) : Stage := ds.foldl (fun s d => (d.made? s).getD s) s

/-- **All the states that some dealings make of a stage**, one after the other, without the one that
it had before. A state that is made twice is there twice. -/
def history (s : Stage) : List Dealing → List Stage
  | [] => []
  | d :: ds => (d.made? s).toList ++ ((d.made? s).getD s).history ds

/-- **The states that an observer is to be given** who is registered so many times already: each
state as many times as the observer is registered by then. A registration counts for the states
after it. -/
def told (s : Stage) (observer : Nat) (times : Nat) : List Dealing → List Stage
  | [] => []
  | d :: ds => (d.made? s).toList.flatMap (List.replicate times)
      ++ ((d.made? s).getD s).told observer (times + if d = .observe observer then 1 else 0) ds

variable {d : Dealing} {ds ds' : List Dealing} {o : Nat}

theorem upon_cons (s : Stage) : s.upon (d :: ds) = ((d.made? s).getD s).upon ds := rfl

/-- A dealing that makes no state has no part in the history. -/
theorem history_cons_of_none {s : Stage} (hd : d.made? s = none) :
    s.history (d :: ds) = s.history ds := by
  rw [history, hd]
  rfl

/-- What an observer is told in two stretches of dealings. In the second one it counts how often the
observer was registered in the first. -/
theorem told_append (s : Stage) (times : Nat) :
    s.told o times (ds ++ ds') =
      s.told o times ds ++ (s.upon ds).told o (times + ds.count (.observe o)) ds' := by
  induction ds generalizing s times with
  | nil => rfl
  | cons d ds ih =>
    rw [List.cons_append, told, told, ih, upon_cons, List.append_assoc, List.count_cons,
      beq_eq_decide]
    simp only [decide_eq_true_eq, Nat.add_assoc, Nat.add_comm (ds.count _)]

/-- Who is not registered and never registers is told nothing. -/
theorem told_zero (hds : .observe o ∉ ds) (s : Stage) : s.told o 0 ds = [] := by
  induction ds generalizing s with
  | nil => rfl
  | cons d ds ih =>
    rw [List.mem_cons, not_or] at hds
    rw [told, if_neg (Ne.symm hds.1), ih hds.2]
    cases d.made? s <;> rfl

/-- Who is registered once, before all the dealings, is told all of the history. -/
theorem told_one (hds : .observe o ∉ ds) (s : Stage) : s.told o 1 ds = s.history ds := by
  induction ds generalizing s with
  | nil => rfl
  | cons d ds ih =>
    rw [List.mem_cons, not_or] at hds
    rw [told, history, if_neg (Ne.symm hds.1), ih hds.2]
    cases d.made? s <;> rfl

/-- **Who is registered once** is told what is made from then on, in order and each state once, and
nothing of what was made before. -/
theorem told_since {before since : List Dealing} (hbefore : .observe o ∉ before)
    (hsince : .observe o ∉ since) (s : Stage) :
    s.told o 0 (before ++ .observe o :: since) = (s.upon before).history since := by
  rw [told_append, told_zero hbefore, List.count_eq_zero.mpr hbefore, told, if_pos rfl]
  exact told_one hsince _

end Stage

/-! ### The audience -/

/-- **A stage and all who watch it**, with what has been collected of what the observers were given.
What was given but not collected is still with the stage, and counts as given as well. -/
structure Audience where
  place : PublicStage
  collected : List (Nat × Stage)
  viewers : List Viewer

namespace Audience

/-- A stage that nobody has seen, and nobody there. -/
def nobody : Audience := ⟨.fresh, [], []⟩

/-- **One dealing** with the stage, as the functions of a stage that is watched carry it out. -/
def deal (a : Audience) : Dealing → Audience
  | .set actors backdrop => { a with place := a.place.set actors backdrop }
  | .change id c => { a with place := (a.place.change id c).1 }
  | .observe o => { a with place := a.place.observe o }
  | .collect =>
    { a with place := a.place.collect.2, collected := a.collected ++ a.place.collect.1 }
  | .subscribe => { a with viewers := a.viewers ++ [.ofStage a.place] }
  | .look v => { a with viewers := a.viewers.modify v fun w => (w.look a.place).2 }

/-- Some dealings, one after the other. -/
def upon (a : Audience) (ds : List Dealing) : Audience := ds.foldl deal a

/-- The audience after some dealings. -/
def after (ds : List Dealing) : Audience := nobody.upon ds

/-- **What an observer has been given** so far, in order, whether or not it was collected. -/
def given (a : Audience) (o : Nat) : List Stage :=
  ((a.collected ++ a.place.deliveries).filter fun d => d.1 = o).map Prod.snd

theorem upon_cons (a : Audience) (d : Dealing) (ds : List Dealing) :
    a.upon (d :: ds) = (a.deal d).upon ds := rfl

theorem after_append (ds ds' : List Dealing) : after (ds ++ ds') = (after ds).upon ds' :=
  List.foldl_append

/-! ### One dealing -/

/-- What an observer is given of a state is one copy for each of its registrations. -/
private theorem map_snd_filter_registered (observers : List Nat) (s : Stage) (o : Nat) :
    ((observers.map fun o' => (o', s)).filter fun d => d.1 = o).map Prod.snd
      = List.replicate (observers.count o) s := by
  induction observers with
  | nil => rfl
  | cons o' observers ih =>
    rw [List.map_cons, List.count_cons]
    by_cases ho : o' = o
    · rw [List.filter_cons_of_pos (by simpa using ho), List.map_cons, ih,
        if_pos (by simpa using ho), List.replicate_succ]
    · rw [List.filter_cons_of_neg (by simpa using ho), ih, if_neg (by simpa using ho), Nat.add_zero]

/-- **What a dealing moves**: the stage, what is shown of it, the count of its editions and what the
observers have been given move together, by the state that is made. Everything that is said below of
any number of dealings is an induction on this. -/
structure Moves (a a' : Audience) (made? : Option Stage) (d : Dealing) : Prop where
  /-- The stage is the state that was made, if one was; -/
  stage_eq : a'.place.stage = made?.getD a.place.stage
  /-- what is shown is as well. -/
  shown_eq : a'.place.shown = made?.getD a.place.shown
  /-- Each state that is made is a new edition. -/
  edition_eq : a'.place.edition = a.place.edition + made?.toList.length
  /-- An observer counts once more for each registration, -/
  count_eq : ∀ o, a'.place.observers.count o
    = a.place.observers.count o + if d = .observe o then 1 else 0
  /-- and is given the state once for each registration before it. -/
  given_eq : ∀ o, a'.given o
    = a.given o ++ made?.toList.flatMap (List.replicate (a.place.observers.count o))

variable (a : Audience)

/-- **A state that is shown** is shown to all at once: it becomes the stage, the last edition, and
what each observer is given next. -/
theorem moves_publish (s : Stage) (d : Dealing) (hd : ∀ o, d ≠ .observe o) :
    a.Moves { a with place := a.place.publish s } (some s) d where
  stage_eq := rfl
  shown_eq := rfl
  edition_eq := rfl
  count_eq o := by rw [if_neg (hd o)]; rfl
  given_eq o := by
    change ((a.collected ++ (a.place.deliveries ++ _)).filter _).map _ = _
    rw [← List.append_assoc, List.filter_append, List.map_append, map_snd_filter_registered,
      Option.toList_some, List.flatMap_singleton]
    rfl

/-- **Where no state is made** and nobody is registered, nothing moves. What was given may have been
put elsewhere, as long as it is the same in all. -/
theorem moves_nothing {a' : Audience} (d : Dealing) (hd : ∀ o, d ≠ .observe o)
    (hstage : a'.place.stage = a.place.stage) (hshown : a'.place.shown = a.place.shown)
    (hedition : a'.place.edition = a.place.edition)
    (hobservers : a'.place.observers = a.place.observers)
    (hgiven : a'.collected ++ a'.place.deliveries = a.collected ++ a.place.deliveries) :
    a.Moves a' none d where
  stage_eq := hstage
  shown_eq := hshown
  edition_eq := hedition
  count_eq o := by rw [hobservers, if_neg (hd o)]; rfl
  given_eq o := by
    unfold given
    rw [hgiven, Option.toList_none, List.flatMap_nil, List.append_nil]

/-- **Every dealing moves the stage by the state that it makes.** There is one case for each kind of
dealing: two of them may show a state, one registers, and the others move nothing. -/
theorem moves_deal (d : Dealing) : a.Moves (a.deal d) (d.made? a.place.stage) d := by
  cases d with
  | set actors backdrop => exact a.moves_publish _ _ fun _ => by simp
  | change id c =>
    change a.Moves { a with place := (a.place.change id c).1 } (a.place.stage.change? id c) _
    unfold PublicStage.change
    cases a.place.stage.change? id c with
    -- a change of somebody unknown shows nothing
    | none => exact a.moves_nothing _ (fun _ => by simp) rfl rfl rfl rfl rfl
    | some s => exact a.moves_publish s _ fun _ => by simp
  | observe o =>
    -- the registration counts from now on, and nothing is given for it
    refine ⟨rfl, rfl, rfl, fun o' => ?_, fun o' => ?_⟩
    · change (a.place.observers ++ [o]).count o' = _
      rw [List.count_append, List.count_singleton]
      simp only [beq_iff_eq, Dealing.observe.injEq]
    · exact (List.append_nil _).symm
  | collect =>
    -- what was given is only put elsewhere
    refine a.moves_nothing _ (fun _ => by simp) rfl rfl rfl rfl ?_
    exact List.append_nil _
  | subscribe => exact a.moves_nothing _ (fun _ => by simp) rfl rfl rfl rfl rfl
  | look v => exact a.moves_nothing _ (fun _ => by simp) rfl rfl rfl rfl rfl

/-! ### Any dealings -/

/-- The stage is what the dealings have made of it. -/
theorem stage_upon (ds : List Dealing) : (a.upon ds).place.stage = a.place.stage.upon ds := by
  induction ds generalizing a with
  | nil => rfl
  | cons d ds ih => rw [upon_cons, ih, (a.moves_deal d).stage_eq, Stage.upon_cons]

/-- **Editions count the states**: there are as many more of them as states were made. -/
theorem edition_upon (ds : List Dealing) :
    (a.upon ds).place.edition = a.place.edition + (a.place.stage.history ds).length := by
  induction ds generalizing a with
  | nil => rfl
  | cons d ds ih =>
    rw [upon_cons, ih, (a.moves_deal d).edition_eq, (a.moves_deal d).stage_eq, Stage.history,
      List.length_append, Nat.add_assoc]

/-- What is shown is the stage, whatever is done. -/
theorem shown_upon (ds : List Dealing) (h : a.place.shown = a.place.stage) :
    (a.upon ds).place.shown = (a.upon ds).place.stage := by
  induction ds generalizing a with
  | nil => exact h
  | cons d ds ih => exact ih _ (by rw [(a.moves_deal d).shown_eq, (a.moves_deal d).stage_eq, h])

/-- **What an observer has been given** after some dealings is what it had before, and then what it
is told of them. The induction is on the dealings, with the number of registrations growing along
the way. -/
theorem given_upon (ds : List Dealing) (o : Nat) :
    (a.upon ds).given o
      = a.given o ++ a.place.stage.told o (a.place.observers.count o) ds := by
  induction ds generalizing a with
  | nil => exact (List.append_nil _).symm
  | cons d ds ih =>
    have hd := a.moves_deal d
    rw [upon_cons, ih, hd.given_eq, hd.stage_eq, hd.count_eq, Stage.told, List.append_assoc]

/-! ### Viewers -/

/-- There are as many viewers as have come; nobody leaves. -/
theorem length_viewers_upon (ds : List Dealing) :
    (a.upon ds).viewers.length = a.viewers.length + ds.count .subscribe := by
  induction ds generalizing a with
  | nil => rfl
  | cons d ds ih =>
    -- only who comes is counted
    have hd : (a.deal d).viewers.length = a.viewers.length + [d].count .subscribe := by
      cases d with
      | subscribe => exact List.length_append
      | look v => exact List.length_modify _ _ _
      | set | change | observe | collect => rfl
    rw [upon_cons, ih, hd, ← List.singleton_append (l := ds), List.count_append, Nat.add_assoc]

/-- A viewer has seen what it had seen until it looks again. Others may come and look in the
meantime. -/
theorem viewer_upon {ds : List Dealing} {v : Nat} (hds : .look v ∉ ds) {w : Viewer}
    (hw : a.viewers[v]? = some w) : (a.upon ds).viewers[v]? = some w := by
  induction ds generalizing a with
  | nil => exact hw
  | cons d ds ih =>
    rw [List.mem_cons, not_or] at hds
    refine ih _ hds.2 ?_
    cases d with
    -- who comes is put behind all who are there
    | subscribe => exact (List.getElem?_append_left (List.getElem?_eq_some_iff.mp hw).1).trans hw
    | look v' =>
      -- somebody else is looking
      have hv : v' ≠ v := fun h => hds.1 (congrArg _ h.symm)
      exact (List.getElem?_modify_ne _ _ hv).trans hw
    | set | change | observe | collect => exact hw

end Audience

/-- **A viewer sees the stage** in a dealing after some others: it comes, or it looks. Viewers are
counted as they come, so who comes has the number of those who came before. -/
def Dealing.Sees (d : Dealing) (before : List Dealing) (viewer : Nat) : Prop :=
  d = .subscribe ∧ viewer = before.count .subscribe ∨
    d = .look viewer ∧ viewer < before.count .subscribe

namespace Audience

/-- Who has just seen the stage has seen its last edition. -/
theorem viewer_after_of_sees {d : Dealing} {before : List Dealing} {v : Nat}
    (hd : d.Sees before v) :
    ((after before).deal d).viewers[v]? = some ⟨(after before).place.edition⟩ := by
  have hcount : (after before).viewers.length = before.count .subscribe := by
    rw [after, length_viewers_upon]
    exact Nat.zero_add _
  rcases hd with ⟨rfl, rfl⟩ | ⟨rfl, hv⟩
  · change ((after before).viewers ++ [_])[before.count .subscribe]? = _
    rw [← hcount, List.getElem?_concat_length]
    rfl
  · rw [← hcount] at hv
    change ((after before).viewers.modify v _)[v]? = _
    rw [List.getElem?_modify_eq, List.getElem?_eq_getElem hv]
    rfl

/-- **A viewer who has seen the stage** finds news there if a state was made since, and not
otherwise. It compares the edition that it saw with the one there is now, and editions count the
states. -/
theorem hasNews_after {before since : List Dealing} {d : Dealing} {v : Nat}
    (hd : d.Sees before v) (hsince : .look v ∉ since) :
    ∃ w, (after (before ++ d :: since)).viewers[v]? = some w ∧
      (w.hasNews (after (before ++ d :: since)).place = true ↔
        (Stage.empty.upon before).history since ≠ []) := by
  -- seeing the stage makes no state, so what counts is what was made since
  have hmade : ∀ s, d.made? s = none := by
    rcases hd with ⟨rfl, -⟩ | ⟨rfl, -⟩ <;> exact fun _ => rfl
  have hstage : (after before).place.stage = Stage.empty.upon before := stage_upon _ _
  refine ⟨⟨(after before).place.edition⟩, ?_, ?_⟩
  · rw [after_append]
    exact viewer_upon _ hsince (viewer_after_of_sees hd)
  · have hedition : (after (before ++ d :: since)).place.edition
        = (after before).place.edition + ((Stage.empty.upon before).history since).length := by
      rw [after_append, edition_upon, hstage, Stage.history_cons_of_none (hmade _)]
    unfold Viewer.hasNews
    rw [hedition, decide_eq_true_eq, ← List.length_pos_iff_ne_nil]
    dsimp only
    omega

end Audience

/-! ### Changes -/

/-- **A change of an id that nobody has** does nothing, and says so: no state is made, nobody is
given anything, and no viewer finds news. -/
theorem PublicStage.change_of_unknown {p : PublicStage} {id : String}
    (hid : ∀ f ∈ p.stage.figures, f.id ≠ id) (c : Change) : p.change id c = (p, false) := by
  have hnobody : p.stage.figureOf? (some id) = none := by
    rw [Stage.figureOf?_some]
    exact List.find?_eq_none.mpr fun f hf => by simpa using hid f hf
  unfold change
  rw [Stage.change?_eq, hnobody]
  rfl

/-- **A change of an id that someone has** is made and shown, and says so, even if the figure looks
the same after it as before. -/
theorem PublicStage.change_of_known {p : PublicStage} {id : String}
    (hid : ∃ f ∈ p.stage.figures, f.id = id) (c : Change) :
    p.change id c = (p.publish (p.stage.alter (some id) (·.apply c)), true) := by
  have hsomebody : (p.stage.figureOf? (some id)).isSome = true := by
    obtain ⟨f, hf, hid⟩ := hid
    rw [Stage.figureOf?_some]
    exact List.find?_isSome.mpr ⟨f, hf, by simpa using hid⟩
  unfold change
  rw [Stage.change?_eq, if_pos hsomebody]

/-! ### Coherence -/

namespace Audience

/-- **Everyone sees what was made of the stage**, and nothing else: those who read it, those who
were registered and are given each state, and those who look from time to time and are told whether
there is news. -/
structure Coherent (ds : List Dealing) (a : Audience) : Prop where
  /-- The stage is what the dealings have made of it. -/
  stage_eq : a.place.stage = Stage.empty.upon ds
  /-- It is what is shown, -/
  shown_eq : a.place.shown = a.place.stage
  /-- and all who read the stage, in whatever way, read what is shown. -/
  figure?_eq : ∀ id, a.place.stage.figure? id = a.place.shown.figures.find? fun f => f.id = id
  firstId?_eq : a.place.stage.firstId? = a.place.shown.figures.head?.map Figure.id
  look_eq : ∀ w : Viewer, (w.look a.place).1 = a.place.stage
  /-- An observer has been given the states that were made since it was registered, in order and
  each once, -/
  given_since : ∀ before o since, ds = before ++ .observe o :: since → .observe o ∉ before →
    .observe o ∉ since → a.given o = (Stage.empty.upon before).history since
  /-- and one that is registered several times has been given each of them for each time. -/
  given_eq : ∀ o, a.given o = Stage.empty.told o 0 ds
  /-- A change of an unknown id leaves everything as it is, -/
  change_unknown : ∀ id c, (∀ f ∈ a.place.shown.figures, f.id ≠ id) →
    a.place.change id c = (a.place, false) ∧ a.deal (.change id c) = a
  /-- and any other one is made. -/
  change_known : ∀ id c, (∃ f ∈ a.place.shown.figures, f.id = id) →
    a.place.change id c = (a.place.publish (a.place.stage.alter (some id) (·.apply c)), true)
  /-- A viewer finds news if a state was made since it last saw the stage, and not otherwise. -/
  hasNews_iff : ∀ before d since v, ds = before ++ d :: since → d.Sees before v →
    .look v ∉ since → ∃ w, a.viewers[v]? = some w ∧
      (w.hasNews a.place = true ↔ (Stage.empty.upon before).history since ≠ [])

/-- **Whatever is done with a stage that nobody had seen**, everyone sees it. The one fact from
which the readings follow is that what is shown is the stage. -/
theorem coherent_after (ds : List Dealing) : Coherent ds (after ds) := by
  have hshown : (after ds).place.shown = (after ds).place.stage := shown_upon _ ds rfl
  have hgiven : ∀ o, (after ds).given o = Stage.empty.told o 0 ds := given_upon nobody ds
  refine ⟨stage_upon _ ds, hshown, ?_, ?_, fun _ => hshown, ?_, hgiven, ?_, ?_, ?_⟩
  · intro id
    rw [hshown]
    rfl
  · rw [hshown]
    rfl
  -- an observer that is registered once
  · rintro before o since hds hbefore hsince
    rw [hgiven, hds]
    exact Stage.told_since hbefore hsince _
  -- a change of somebody unknown, and then one of somebody known
  · intro id c hid
    rw [hshown] at hid
    have hchange := PublicStage.change_of_unknown hid c
    exact ⟨hchange, by rw [deal, hchange]⟩
  · intro id c hid
    rw [hshown] at hid
    exact PublicStage.change_of_known hid c
  · rintro before d since v rfl hd hsince
    exact hasNews_after hd hsince

end Audience

end StagePlay
