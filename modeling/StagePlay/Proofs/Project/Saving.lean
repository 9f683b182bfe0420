import StagePlay.Project
import StagePlay.Proofs.Program.Lasting

/-!
# Saved projects

A project that was loaded from a text is written as a text from which the same project is loaded
again. What was read goes through three things: the text is read as a document, which holds only
finite numbers (`read_finite`); the document is decoded into a project, whose parts last
(`Project.lasts_of_decode`); and the project is written as a document that its own text leads back to
(`read_write`).

* `Actor.lasts`, `Backdrop.lasts` — actors and the backdrop, whatever they are;
* `Project.survives_saving` — the result.
-/

namespace StagePlay

open Json Number

/-- **An actor lasts.** It is a record of three texts. -/
theorem Actor.lasts (left : Nat) (a : Actor) : Lasts encode (decode (left + 1)) a where
  finite := by
    have htext (s : String) : (Value.text s).Finite := (lasts_text s).finite
    rw [encode, Value.finite_object]
    simp [htext]
  reread := rfl

/-- **A backdrop lasts.** It is a record of two texts. -/
theorem Backdrop.lasts (left : Nat) (b : Backdrop) : Lasts encode (decode (left + 1)) b where
  finite := by
    have htext (s : String) : (Value.text s).Finite := (lasts_text s).finite
    rw [encode, Value.finite_object]
    simp [htext]
  reread := rfl

namespace Project

/-- **A project lasts if its program does**, where one more level may be nested than the program
needs. Actors and backdrop always last, and they need less. -/
theorem lasts_of_program (k : Nat) {p : Project}
    (hprogram : Lasts Program.encode (Program.decode (2 * k + 2)) p.program) :
    Lasts encode (decode (2 * k + 3)) p := by
  have hactors := Lasts.list (2 * k + 1) fun a (_ : a ∈ p.actors) => Actor.lasts (2 * k) a
  have hbackdrop : Lasts (.orNull Backdrop.encode) (decodeOption (Backdrop.decode (2 * k + 2)))
      p.backdrop :=
    Lasts.orNull (fun b => by simp [Backdrop.encode, Node.ofValue]) fun b _ => b.lasts (2 * k + 1)
  constructor
  · rw [encode, Value.finite_object]
    exact List.forall_mem_cons.mpr ⟨hactors.finite, List.forall_mem_cons.mpr
      ⟨hbackdrop.finite, List.forall_mem_singleton.mpr hprogram.finite⟩⟩
  -- the members in the order in which they are written, each of which fills one field
  · have hmembers : (shape (2 * k + 2)).decodeMembers (nodesOfMembers
        [("actors", .array (p.actors.map Actor.encode)),
          ("background", .orNull Backdrop.encode p.backdrop), ("program", p.program.encode)]) {} =
        .ok { program := some p.program, actors := some p.actors, backdrop := some p.backdrop } := by
      refine (Shape.decodeMembers_put (fun as => { actors := some as }) rfl rfl
        hactors.reread rfl).trans ?_
      refine (Shape.decodeMembers_put (fun b => { actors := some p.actors, backdrop := some b })
        rfl rfl hbackdrop.reread rfl).trans ?_
      exact (Shape.decodeMembers_put
        (fun q => { program := some q, actors := some p.actors, backdrop := some p.backdrop })
        rfl rfl hprogram.reread rfl).trans rfl
    exact (bind_of_eq_ok (Shape.decode_object (2 * k + 2) hmembers rfl)).trans rfl

/-- **A project that is read lasts.** Its program was read from a node whose numbers are finite, and
a project that was read without a program has an empty one. -/
theorem lasts_of_decode (k : Nat) {node : Node} {p : Project} (hnode : node.Finite)
    (h : decode (2 * k + 3) node = .ok p) : Lasts encode (decode (2 * k + 3)) p := by
  obtain ⟨d, hd, hp⟩ := of_bind_eq_ok h
  cases hp
  have hprogram : ∀ q ∈ d.program, Lasts Program.encode (Program.decode (2 * k + 2)) q := by
    -- each field either reads a program, or leaves the one that was read
    refine Shape.decode_keeps (P := fun d => ∀ q ∈ d.program,
      Lasts Program.encode (Program.decode (2 * k + 2)) q) ?_ (by simp [shape]) hnode hd
    intro f hf node d d' hnode hd h
    simp only [shape, List.mem_cons, List.not_mem_nil, or_false] at hf
    rcases hf with rfl | rfl | rfl <;> obtain ⟨x, hx, h⟩ := of_bind_eq_ok h <;> cases h
    · rintro q ⟨rfl⟩
      exact Program.lasts_of_decode k hnode hx
    · exact hd
    · exact hd
  refine lasts_of_program k ?_
  cases hq : d.program with
  | none => exact Program.lasts_ofBlocks (2 * k) (by simp)
  | some q => exact hprogram q hq

/-- **Saving loses nothing.** Whatever text a project was loaded from, the text that it is saved as
holds the same project, and that project is saved as the same document. What is relied on is that
each finite float of the saved document is found again where its digits stand alone. -/
theorem survives_saving {source : String} {p : Project} (hload : ofJson source = .ok p)
    (hfloats : p.encode.FloatsReread) :
    ofJson p.encode.write = .ok p ∧ (ofJson p.encode.write).map encode = .ok p.encode := by
  obtain ⟨q, hq, htrailing⟩ := of_bind_eq_ok hload
  -- a project was read, and it was read to the end of the text
  have hlasts : Lasts encode (decode depthLimit) p := by
    split at htrailing
    · cases htrailing
    · cases htrailing
      exact lasts_of_decode 62 (read_finite source) hq
  -- its document has finite numbers only, so all of them are found again
  have hread : read p.encode.write = ⟨Node.ofValue p.encode, false⟩ := by
    refine read_write fun n hn => ?_
    obtain ⟨x, rfl, hx⟩ := hlasts.finite n hn
    exact hfloats x hn hx
  have hagain : ofJson p.encode.write = .ok p := by
    show (decode depthLimit (read p.encode.write).root >>= _) = _
    rw [hread, hlasts.reread]
    rfl
  exact ⟨hagain, by rw [hagain]; rfl⟩

/-- A project in unusual forms: the program as an array, an operation under its other name, and an
argument that is given twice. -/
def sampleSource : String :=
  "\x7b\"program\":[[\x7b\"kind\":\"wait\",\"id\":\"a\",\"parameters\":\x7b\"t\":1,\"t\":2.5\x7d\x7d]]\x7d"

/-- The sample is loaded with the argument that was given last, and survives. -/
theorem sampleSource_survives : ∃ p, ofJson sampleSource = .ok p ∧
    p.encode.numbers = [.real 2.5] ∧ ofJson p.encode.write = .ok p := by
  have hnumbers : (ofJson sampleSource).toOption.map (fun p => p.encode.numbers) =
      some [.real 2.5] := by
    decide +kernel
  cases h : ofJson sampleSource with
  | error e =>
    rw [h] at hnumbers
    cases hnumbers
  | ok p =>
    rw [h] at hnumbers
    have hp : p.encode.numbers = [.real 2.5] := Option.some.inj hnumbers
    have hfloats : p.encode.FloatsReread :=
      Value.floatsReread_of_numbers [2.5] hp (List.forall_mem_singleton.mpr rfl)
    exact ⟨p, rfl, hp, (survives_saving h hfloats).1⟩

end Project

end StagePlay
