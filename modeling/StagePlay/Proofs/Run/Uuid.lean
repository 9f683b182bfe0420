import Mathlib.Tactic.IntervalCases
import StagePlay.Run.Uuid

/-!
# Written identifiers

The written form of an identifier is read as that identifier (`Uuid.read_write`): its 32 digits stand
for its number (`hexNumber?_hexChars`), and taking the hyphens out again leaves the digits
(`ungroup?_grouped`).
-/

namespace StagePlay.Uuid

/-! ### Digits -/

/-- Each of the sixteen digits has its value. -/
theorem hexValue?_digitChar {d : Nat} (h : d < 16) : hexValue? (Nat.digitChar d) = some d := by
  interval_cases d <;> rfl

theorem length_hexChars (count n : Nat) : (hexChars count n).length = count := by
  induction count generalizing n with
  | zero => rfl
  | succ count ih => rw [hexChars, List.length_append, ih, List.length_singleton]

/-- **The digits of a number** stand for that number, if there are enough of them for it. The last
digit is what remains by sixteen, and those before it stand for the rest. -/
theorem hexNumber?_hexChars {count n : Nat} (h : n < 16 ^ count) :
    hexNumber? (hexChars count n) = some n := by
  induction count generalizing n with
  | zero =>
    obtain rfl : n = 0 := by simpa using h
    rfl
  | succ count ih =>
    have hhigh : n / 16 < 16 ^ count := by
      rw [Nat.pow_succ] at h
      omega
    have hlow : hexValue? (Nat.digitChar (n % 16)) = some (n % 16) :=
      hexValue?_digitChar (Nat.mod_lt n (by decide))
    -- the digits before the last one stand for the number without it
    have hread := ih hhigh
    unfold hexNumber? at hread ⊢
    rw [hexChars, List.foldlM_append, hread]
    show ((hexValue? (Nat.digitChar (n % 16))).map fun d => 16 * (n / 16) + d) >>= pure = _
    rw [hlow]
    show some (16 * (n / 16) + n % 16) = some n
    rw [Nat.div_add_mod]

theorem mem_hexChars {count n : Nat} {c : Char} (h : c ∈ hexChars count n) :
    ∃ d < 16, c = Nat.digitChar d := by
  induction count generalizing n with
  | zero => cases h
  | succ count ih =>
    rcases List.mem_append.mp h with h | h
    · exact ih h
    · exact ⟨n % 16, Nat.mod_lt n (by decide), List.mem_singleton.mp h⟩

/-! ### Groups -/

/-- **Five groups** with hyphens between them, without their hyphens. The reader looks for the
hyphens at fixed places, so the lengths of the groups are all it depends on. -/
theorem ungroup?_join {a b c d e : List Char} (ha : a.length = 8) (hb : b.length = 4)
    (hc : c.length = 4) (hd : d.length = 4) (he : e.length = 12) :
    ungroup? (a ++ '-' :: (b ++ '-' :: (c ++ '-' :: (d ++ '-' :: e)))) =
      some (a ++ b ++ c ++ d ++ e) := by
  have hlength : (a ++ '-' :: (b ++ '-' :: (c ++ '-' :: (d ++ '-' :: e)))).length = 36 := by
    simp [ha, hb, hc, hd, he]
  unfold ungroup?
  rw [if_pos]
  · simp [List.drop_append, List.drop_eq_nil_of_le, ha, hb, hc, hd]
  · simp [hlength, List.getElem?_append, ha, hb, hc, hd]

/-- **Taking the hyphens out** of 32 grouped digits leaves the digits, as the groups are cut to just
those lengths. -/
theorem ungroup?_grouped {cs : List Char} (h : cs.length = 32) :
    ungroup? (grouped groupLengths cs) = some cs := by
  have hjoin : grouped groupLengths cs = cs.take 8 ++ '-' :: ((cs.drop 8).take 4 ++
      '-' :: (((cs.drop 8).drop 4).take 4 ++ '-' :: ((((cs.drop 8).drop 4).drop 4).take 4 ++
        '-' :: ((((cs.drop 8).drop 4).drop 4).drop 4).take 12))) := rfl
  have hlast : ((((cs.drop 8).drop 4).drop 4).drop 4).take 12 =
      (((cs.drop 8).drop 4).drop 4).drop 4 :=
    List.take_of_length_le (by simp [h])
  rw [hjoin, ungroup?_join (by simp [h]) (by simp [h]) (by simp [h]) (by simp [h]) (by simp [h]),
    hlast]
  simp only [List.append_assoc, List.take_append_drop]

theorem mem_grouped {ns : List Nat} {cs : List Char} {c : Char} (h : c ∈ grouped ns cs) :
    c ∈ cs ∨ c = '-' := by
  induction ns, cs using grouped.induct with
  | case1 cs => cases h
  | case2 n cs => exact .inl (List.mem_of_mem_take h)
  | case3 n ns cs hns ih =>
    rw [grouped] at h
    · rcases List.mem_append.mp h with h | h
      · exact .inl (List.mem_of_mem_take h)
      · rcases List.mem_cons.mp h with rfl | h
        · exact .inr rfl
        · exact (ih h).imp_left List.mem_of_mem_drop
    · exact hns

/-- Characters of one byte each take as many bytes as there are. -/
theorem byteCount_eq_length {cs : List Char} (h : ∀ c ∈ cs, c.utf8Size = 1) :
    byteCount cs = cs.length := by
  unfold byteCount
  induction cs with
  | nil => rfl
  | cons c cs ih =>
    obtain ⟨hc, hcs⟩ := List.forall_mem_cons.mp h
    rw [String.ofList_cons, String.utf8ByteSize_append, String.utf8ByteSize_singleton, ih hcs, hc,
      List.length_cons, Nat.add_comm]

/-- Digits in groups take 36 bytes: 32 of them, and four hyphens. By this length the reader knows
which form it has before it. -/
theorem byteCount_grouped {cs : List Char} (hlength : cs.length = 32)
    (hbytes : ∀ c ∈ cs, c.utf8Size = 1) : byteCount (grouped groupLengths cs) = 36 := by
  rw [byteCount_eq_length fun c hc => ?_]
  · simp [grouped, groupLengths, hlength]
  · rcases mem_grouped hc with hc | rfl
    · exact hbytes c hc
    · rfl

/-! ### Identifiers -/

/-- **An identifier is read as it was written.** It is written as 32 hexadecimal digits in five
groups; reading takes the hyphens out and the digits back to the number. -/
theorem read_write (u : Uuid) : read u.write = .ok u := by
  have hlength : (hexChars 32 u.bits.toNat).length = 32 := length_hexChars 32 _
  have hbytes : ∀ c ∈ hexChars 32 u.bits.toNat, c.utf8Size = 1 := by
    intro c hc
    obtain ⟨d, hd, rfl⟩ := mem_hexChars hc
    interval_cases d <;> rfl
  have hcount := byteCount_grouped hlength hbytes
  have hnumber : hexNumber? (hexChars 32 u.bits.toNat) = some u.bits.toNat :=
    hexNumber?_hexChars u.bits.isLt
  -- the number has 128 bits, so nothing is cut off
  have hdigits : ofDigits? (hexChars 32 u.bits.toNat) = some u := by
    rw [ofDigits?, if_pos hlength, hnumber]
    show some (⟨BitVec.ofNat 128 u.bits.toNat⟩ : Uuid) = some u
    rw [BitVec.ofNat_toNat, BitVec.setWidth_eq]
  unfold read write
  simp only [String.toList_ofList, bodyOf, hcount]
  simp [ungroup?_grouped hlength, hdigits]

end StagePlay.Uuid
