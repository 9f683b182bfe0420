import StagePlay.Proofs.Project.Saving
import StagePlay.Stage.Codec

/-!
# Saved stages

A stage whose numbers are finite is written as a text from which the same stage is read. A number
that is not finite is written as nothing, and so a stage with such a number cannot be read again.
-/

namespace StagePlay

open Json Number

/-- **A float lasts if it is finite.** It is written with as many digits as tell it from the other
floats; one that is not finite is written as nothing at all. -/
theorem lasts_float {x : Float} (hx : isFinite x = true) : Lasts Value.float decodeFloat x where
  finite n hn := by
    obtain rfl := List.mem_singleton.mp hn
    exact ⟨x, rfl, hx⟩
  reread := rfl

/-- **A figure with finite numbers.** These are the only numbers that a stage has. -/
structure Figure.Finite (f : Figure) : Prop where
  x : isFinite f.position.x = true
  y : isFinite f.position.y = true
  heading : isFinite f.heading = true
  scale : isFinite f.scale = true

theorem Speech.finite_encode (s : Speech) : s.encode.Finite := by
  have htext (t : String) : (Value.text t).Finite := (lasts_text t).finite
  cases s <;> simp [encode, Value.finite_object, htext]

/-- What is said lasts, whatever the words are. -/
theorem Speech.lasts (left : Nat) (s : Speech) : Lasts encode (decode (left + 1)) s where
  finite := s.finite_encode
  reread := by cases s <;> rfl

/-- **A figure with finite numbers lasts.** It is a record of eight fields, two of which are records
themselves, so it takes two levels of what may be nested. -/
theorem Figure.Finite.lasts {f : Figure} (h : f.Finite) (left : Nat) :
    Lasts encode (decode (left + 2)) f where
  finite := by
    have htext (t : String) : (Value.text t).Finite := (lasts_text t).finite
    have hbool (b : Bool) : (Value.bool b).Finite := fun _ hn => absurd hn List.not_mem_nil
    have hposition : f.position.encode.Finite := by
      rw [Point.encode, Value.finite_object]
      simp [(lasts_float h.x).finite, (lasts_float h.y).finite]
    rw [encode, Value.finite_object]
    simp [htext, hbool, hposition, (lasts_float h.heading).finite, (lasts_float h.scale).finite,
      Speech.finite_encode]
  reread := by
    obtain ⟨id, name, imageRef, ⟨x, y⟩, heading, scale, visible, speech⟩ := f
    -- read back field by field; what is said decides how its words are read
    cases speech <;> rfl

namespace Stage

/-- **A stage with finite numbers lasts**, if four levels of nesting are left: its own, that of the
list of figures, that of a figure and that of a place. -/
theorem lasts_of_finite {s : Stage} (h : ∀ f ∈ s.figures, f.Finite) (left : Nat) :
    Lasts encode (decode (left + 4)) s := by
  have hfigures := Lasts.list (left + 2) fun f hf => (h f hf).lasts left
  have hbackdrop : Lasts (.orNull Backdrop.encode) (decodeOption (Backdrop.decode (left + 3)))
      s.backdrop :=
    Lasts.orNull (fun b => by simp [Backdrop.encode, Node.ofValue]) fun b _ => b.lasts (left + 2)
  constructor
  · rw [encode, Value.finite_object]
    exact List.forall_mem_cons.mpr ⟨hfigures.finite, List.forall_mem_singleton.mpr hbackdrop.finite⟩
  -- the figures come first in the text, and the backdrop after them
  · have hmembers : (shape (left + 3)).decodeMembers (nodesOfMembers
        [("actors", .array (s.figures.map Figure.encode)),
          ("background", .orNull Backdrop.encode s.backdrop)]) {} =
        .ok { backdrop := some s.backdrop, figures := some s.figures } := by
      refine (Shape.decodeMembers_put (fun fs => { figures := some fs }) rfl rfl
        hfigures.reread rfl).trans ?_
      exact (Shape.decodeMembers_put (fun b => { backdrop := some b, figures := some s.figures })
        rfl rfl hbackdrop.reread rfl).trans rfl
    exact (bind_of_eq_ok (Shape.decode_object (left + 3) hmembers rfl)).trans rfl

/-- **A stage with finite numbers is read as it was written.** What is relied on is that each of its
floats is found again where its digits stand alone. -/
theorem decode_write {s : Stage} (h : ∀ f ∈ s.figures, f.Finite)
    (hfloats : s.encode.FloatsReread) :
    decodeSource decode s.encode.write = .ok s := by
  have hlasts : Lasts encode (decode depthLimit) s := lasts_of_finite h 123
  rw [decodeSource_write hlasts.finite hfloats]
  exact hlasts.reread

end Stage

end StagePlay
