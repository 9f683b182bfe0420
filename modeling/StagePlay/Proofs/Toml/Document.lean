import StagePlay.Proofs.Toml.Scalar
import StagePlay.Proofs.Toml.Text
import StagePlay.Settings.File
import StagePlay.Toml.Document

/-!
# Settings files that are written and read

A settings file that is written has one line for each setting: a key without quotes, and a whole
number or a text. It is read line by line, and holds the settings in their order.

* `Written` — what is written for a value, so that it is read as that value at the end of a line;
* `Setting` — a line that gives a written value to a key;
* `readLines?_lines` — the lines of a file;
* `read?_lines`: the result. A file of such lines with different keys holds their values.
-/

namespace StagePlay.Toml

open Number

/-! ### Values -/

/-- Nothing is skipped of what begins with no blank. -/
theorem skipBlanks_of_ne {c : Char} (hblank : c ≠ ' ') (htab : c ≠ '\t') (cs : List Char) :
    skipBlanks (c :: cs) = c :: cs :=
  List.dropWhile_cons_of_neg (by simp [hblank, htab])

/-- **What is written for a value**: it begins with no blank, and is read as the value up to the end
of its line, at any depth and with any fuel. -/
structure Written (cs : List Char) (v : Value) : Prop where
  skipBlanks_eq : ∀ rest, skipBlanks (cs ++ '\n' :: rest) = cs ++ '\n' :: rest
  readValue?_eq : ∀ left fuel rest,
    readValue? left (fuel + 1) (cs ++ '\n' :: rest) = some (v, '\n' :: rest)

/-- **A number that 64 bits with a sign hold** is written with its digits. -/
theorem written_digitChars {n : Nat} (hn : n < signedBound) :
    Written (digitChars n) (.int n) := by
  have hds : ∀ c ∈ digitChars n, isDigit c = true := fun c => isDigit_of_mem_digitChars
  have hword := splitWord_digits hds
  have hread := readWord?_digitChars hn
  obtain ⟨c, cs, hcs⟩ := List.exists_cons_of_ne_nil (digitChars_ne_nil n)
  rw [hcs] at hds hword hread ⊢
  have hc : ∀ d, isDigit d = false → c ≠ d := fun d => ne_of_kind (hds c List.mem_cons_self)
  refine ⟨fun rest => skipBlanks_of_ne (hc ' ' (by decide)) (hc '\t' (by decide)) _,
    fun left fuel rest => ?_⟩
  -- the first character is a digit, so it opens neither a list nor a table nor a text
  have hother : ∀ d, isDigit d = false → ∀ tail, c :: cs ++ '\n' :: rest = d :: tail → False :=
    fun d hd tail h => hc d hd (List.cons.inj h).1
  rw [readValue?.eq_6 _ _ _ (hother _ (by decide)) (hother _ (by decide)) (hother _ (by decide))
    (hother _ (by decide)), hword]
  dsimp only
  rw [hread]
  rfl

/-- A text is written between quotes, in whichever of the five ways. -/
theorem writeText_eq_cons (s : String) :
    ∃ q cs, writeText s = q :: cs ∧ (q = '"' ∨ q = '\'') := by
  unfold writeText
  cases styleOf s.toList with
  | basic => exact ⟨'"', _, rfl, .inl rfl⟩
  | basicLines => exact ⟨'"', _, rfl, .inl rfl⟩
  | literal => exact ⟨'\'', _, rfl, .inr rfl⟩
  | literalTriple => exact ⟨'\'', _, rfl, .inr rfl⟩
  | literalLines => exact ⟨'\'', _, rfl, .inr rfl⟩

/-- **A text, whatever it is**, is written between quotes and read up to them. What follows is the
end of the line, which is no quote. -/
theorem written_writeText (s : String) : Written (writeText s) (.text s) := by
  have hread : ∀ rest, readText? (writeText s ++ '\n' :: rest) = some (s.toList, '\n' :: rest) :=
    fun rest => readText?_writeText s (by simp) (by simp)
  obtain ⟨q, cs, hcs, hq⟩ := writeText_eq_cons s
  rw [hcs] at hread ⊢
  have htext : ∀ rest, (readText? (q :: cs ++ '\n' :: rest)).map
      (fun read => (Value.text (String.ofList read.1), read.2)) = some (.text s, '\n' :: rest) := by
    intro rest
    rw [hread, Option.map_some, String.ofList_toList]
  -- either quote leads to the reader of texts
  rcases hq with rfl | rfl
  · refine ⟨fun rest => rfl, fun left fuel rest => ?_⟩
    rw [List.cons_append, readValue?]
    exact htext rest
  · refine ⟨fun rest => rfl, fun left fuel rest => ?_⟩
    rw [List.cons_append, readValue?]
    exact htext rest

/-! ### Lines -/

/-- **A key that needs no quotes**: it is not empty, and has only the characters that a key may have
as it stands. -/
structure IsBare (key : String) : Prop where
  ne_nil : key.toList ≠ []
  isKeyChar : ∀ c ∈ key.toList, isKeyChar c = true

instance (key : String) : Decidable (IsBare key) :=
  decidable_of_iff (key.toList ≠ [] ∧ key.toList.all isKeyChar = true)
    ⟨fun h => ⟨h.1, List.all_eq_true.mp h.2⟩, fun h => ⟨h.1, List.all_eq_true.mpr h.2⟩⟩

/-- **A setting of a file**: a key with a value that is written. That the one needs no quotes and
the other is read again are part of it. -/
structure Setting where
  key : String
  chars : List Char
  value : Value
  bare : IsBare key
  written : Written chars value

/-- The line of a setting. -/
def Setting.line (s : Setting) : List Char := settingLine s.key s.chars

/-- A key is read up to the blank behind it. -/
theorem readKey?_bare {key : String} (hkey : IsBare key) (cs : List Char) :
    readKey? (key.toList ++ ' ' :: cs) = some (key, ' ' :: cs) := by
  obtain ⟨hne, hchars⟩ := hkey
  have htake : (key.toList ++ ' ' :: cs).takeWhile isKeyChar = key.toList := by
    rw [List.takeWhile_append_of_pos hchars, List.takeWhile_cons_of_neg (by decide),
      List.append_nil]
  have hdrop : (key.toList ++ ' ' :: cs).dropWhile isKeyChar = ' ' :: cs := by
    rw [List.dropWhile_append_of_pos hchars, List.dropWhile_cons_of_neg (by decide)]
  obtain ⟨c, tail, htail⟩ := List.exists_cons_of_ne_nil hne
  rw [htail] at hchars
  have hother : ∀ d, isKeyChar d = false → ∀ rest, key.toList ++ ' ' :: cs = d :: rest → False := by
    intro d hd rest h
    rw [htail] at h
    exact ne_of_kind (hchars c List.mem_cons_self) hd (List.cons.inj h).1
  rw [readKey?.eq_3 _ (hother _ (by decide)) (hother _ (by decide)), htake, hdrop]
  rw [if_neg (by simpa using hne), String.ofList_toList]

/-- A line is its key, a mark and its value, with a blank on either side of the mark. -/
theorem Setting.line_eq (s : Setting) (rest : List Char) :
    s.line ++ rest = s.key.toList ++ ' ' :: '=' :: ' ' :: (s.chars ++ '\n' :: rest) := by
  simp [line, settingLine]

/-- So the first character of a line is that of its key, and what is tried for other characters is
out of the question. -/
theorem Setting.exists_line_eq_cons (s : Setting) (rest : List Char) :
    ∃ c cs, s.line ++ rest = c :: cs ∧ isKeyChar c = true := by
  obtain ⟨c, cs, hcs⟩ := List.exists_cons_of_ne_nil s.bare.ne_nil
  refine ⟨c, _, by rw [s.line_eq, hcs, List.cons_append], s.bare.isKeyChar c ?_⟩
  rw [hcs]
  exact List.mem_cons_self

/-- A line is read up to its mark as a path of one key. -/
theorem Setting.readPath?_line (s : Setting) (rest : List Char) :
    readPath? (s.line ++ rest) = some ([s.key], '=' :: ' ' :: (s.chars ++ '\n' :: rest)) := by
  have hblanks : skipBlanks (s.line ++ rest) = s.line ++ rest := by
    obtain ⟨c, cs, hcs, hc⟩ := s.exists_line_eq_cons rest
    rw [hcs, skipBlanks_of_ne (ne_of_kind hc (by decide)) (ne_of_kind hc (by decide))]
  unfold readPath? nestingLimit readKeys?
  rw [hblanks, s.line_eq, readKey?_bare s.bare]
  rfl

/-- **A line is read as its setting.** -/
theorem Setting.readLine?_line (s : Setting) (fuel : Nat) (rest : List Char) :
    readLine? (fuel + 1) (s.line ++ rest) = some (.pair [s.key] s.value, '\n' :: rest) := by
  have hpath := s.readPath?_line rest
  have hvalue : readValue? nestingLimit (fuel + 1)
      (skipBlanks (' ' :: (s.chars ++ '\n' :: rest))) = some (s.value, '\n' :: rest) := by
    change readValue? nestingLimit (fuel + 1) (skipBlanks (s.chars ++ '\n' :: rest)) = _
    rw [s.written.skipBlanks_eq, s.written.readValue?_eq]
  obtain ⟨c, cs, hcs, hc⟩ := s.exists_line_eq_cons rest
  have hbracket := ne_of_kind hc (by decide : isKeyChar '[' = false)
  rw [hcs] at hpath ⊢
  unfold readLine?
  -- a line that begins with a bracket would open a table
  split
  · next heq => exact absurd (List.cons.inj heq).1 hbracket
  · next heq => exact absurd (List.cons.inj heq).1 hbracket
  · rw [hpath]
    simp only [Option.bind_eq_bind, Option.bind_some, hvalue]
    rfl

/-- Nothing is skipped where a key begins. -/
theorem skipGap?_of_isKeyChar {c : Char} (hc : isKeyChar c = true) (cs : List Char) :
    skipGap? false (c :: cs) = some (c :: cs) := by
  have hline := ne_of_kind hc (by decide : isKeyChar '\n' = false)
  have hreturn := ne_of_kind hc (by decide : isKeyChar '\r' = false)
  have hblank := ne_of_kind hc (by decide : isKeyChar ' ' = false)
  have htab := ne_of_kind hc (by decide : isKeyChar '\t' = false)
  have hcomment := ne_of_kind hc (by decide : isKeyChar '#' = false)
  rw [skipGap?.eq_def]
  simp [hline, hreturn, hblank, htab, hcomment]

/-- The end of a line is skipped before the next one. -/
theorem readLines?_lineEnd (fuel : Nat) (cs : List Char) :
    readLines? fuel ('\n' :: cs) = readLines? fuel cs := by
  cases fuel with
  | zero => rfl
  | succ fuel =>
    have hskip : skipGap? false ('\n' :: cs) = skipGap? false cs := by
      rw [skipGap?.eq_def]
      rfl
    rw [readLines?, readLines?, hskip]

/-- **The lines of a file**, one after the other. The fuel that is left over does not matter. -/
theorem readLines?_lines (settings : List Setting) (fuel : Nat) :
    readLines? (fuel + settings.length + 2) (settings.flatMap Setting.line) =
      some (settings.map fun s => .pair [s.key] s.value) := by
  induction settings with
  | nil => rfl
  | cons s settings ih =>
    obtain ⟨c, cs, hcs, hc⟩ := s.exists_line_eq_cons (settings.flatMap Setting.line)
    have hline := s.readLine?_line (fuel + settings.length + 1) (settings.flatMap Setting.line)
    have hend : isLineEnd ('\n' :: settings.flatMap Setting.line) = true := rfl
    rw [List.flatMap_cons, List.length_cons]
    rw [hcs] at hline ⊢
    -- one unit of the fuel for this line, and the rest for the others
    change readLines? (fuel + settings.length + 2 + 1) _ = _
    rw [readLines?, skipGap?_of_isKeyChar hc]
    simp only [Option.bind_eq_bind, Option.bind_some, hline]
    rw [if_pos hend, readLines?_lineEnd, ih]
    rfl

/-! ### Tables -/

/-- A key that is not there yet comes last. -/
theorem alter_of_not_mem {key : String} {ms : Members} (h : key ∉ ms.map Prod.fst)
    (f : Option Tree → Option Tree) :
    alter key f ms = (f none).map fun t => ms ++ [(key, t)] := by
  induction ms with
  | nil => rfl
  | cons m ms ih =>
    obtain ⟨hne, hnot⟩ := not_or.mp (mt List.mem_cons.mpr h)
    unfold alter
    rw [if_neg (Ne.symm hne), ih hnot, Option.map_map]
    rfl

/-- A value is assigned to such a key behind all the others. -/
theorem assign_of_not_mem {key : String} {ms : Members} (h : key ∉ ms.map Prod.fst) (v : Value) :
    assign [key] v ms = some (ms ++ [(key, .leaf v)]) := by
  unfold assign
  rw [alter_of_not_mem h]
  rfl

/-- **Settings with different keys** fill a table one after the other. The induction is on the
settings, with the table that the ones before have filled. -/
theorem foldlM_apply?_pairs {settings : List Setting} {ms : Members}
    (h : (ms.map Prod.fst ++ settings.map Setting.key).Nodup) :
    (settings.map fun s => Line.pair [s.key] s.value).foldlM Reading.apply? ⟨ms, []⟩ =
      some ⟨ms ++ settings.map fun s => (s.key, .leaf s.value), []⟩ := by
  induction settings generalizing ms with
  | nil => simp
  | cons s settings ih =>
    -- the keys are different, so this one is not in the table yet
    have hkey : s.key ∉ ms.map Prod.fst := fun hmem =>
      (List.nodup_append.mp h).2.2 s.key hmem s.key List.mem_cons_self rfl
    have happly : Reading.apply? ⟨ms, []⟩ (.pair [s.key] s.value) =
        some ⟨ms ++ [(s.key, .leaf s.value)], []⟩ := by
      change (assign [s.key] s.value ms).map _ = _
      rw [assign_of_not_mem hkey]
      rfl
    rw [List.map_cons, List.foldlM_cons, happly]
    change (settings.map _).foldlM Reading.apply? _ = _
    rw [ih (by simpa using h), List.map_cons, List.append_assoc]
    rfl

theorem valuesOf_leaves (settings : List Setting) :
    valuesOf (settings.map fun s => (s.key, .leaf s.value)) =
      settings.map fun s => (s.key, s.value) := by
  induction settings with
  | nil => rfl
  | cons s settings ih => simp [valuesOf, Tree.value, ih]

/-! ### The result -/

/-- There are no more settings than characters. -/
theorem length_le_lines (settings : List Setting) :
    settings.length ≤ (settings.flatMap Setting.line).length := by
  induction settings with
  | nil => exact Nat.le_refl _
  | cons s settings ih =>
    have hline : 0 < s.line.length := by
      unfold Setting.line settingLine
      rw [List.length_append]
      exact Nat.succ_pos _
    rw [List.flatMap_cons, List.length_append, List.length_cons]
    omega

/-- **A file of settings with different keys holds their values**, in their order. -/
theorem read?_lines {settings : List Setting} (h : (settings.map Setting.key).Nodup) :
    read? (String.ofList (settings.flatMap Setting.line)) =
      some (settings.map fun s => (s.key, s.value)) := by
  -- the fuel of the reader is enough, because no line is empty
  have hlength := length_le_lines settings
  have hlines := readLines?_lines settings
    (2 * (settings.flatMap Setting.line).length - settings.length)
  rw [Nat.sub_add_cancel (by omega)] at hlines
  unfold read?
  simp only [String.toList_ofList, hlines, Option.bind_eq_bind, Option.bind_some]
  rw [foldlM_apply?_pairs (by simpa using h)]
  simp [valuesOf_leaves]

end StagePlay.Toml
