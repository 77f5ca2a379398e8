-- SUMMARY: The lines of a COPY in text format: the parser of rows, what Postgres writes, and when a line is read back.
import Moonlink.Replication.TextFormat

/-!
# Rows of a COPY

A line has the fields of a row between tabs, with escapes for the characters that would end a
field, and `\N` for NULL. The parser decodes the escapes first and then compares with `\N`, so
that the string `\N`, which is written `\\N`, becomes NULL as well. A row ends where the line
ends, however many columns are left.

Columns are of the text types.
-/

namespace Moonlink.Replication

open Lib

inductive TableRowConversionError where
  | invalidString
  | numColsMismatch
  | unterminatedRow
  | invalidValue (e : FromTextFailure)
  deriving DecidableEq, Repr

/-! ## The parser -/

/-- What is pushed for a character after a backslash. -/
def pushEscaped (valStr : Text) (c : Char) : Text :=
  if c = 'N' then valStr ++ ['\\', c]
  else if c = 'b' then valStr ++ [Char.ofNat 8]
  else if c = 'f' then valStr ++ [Char.ofNat 12]
  else if c = 'n' then valStr ++ ['\n']
  else if c = 'r' then valStr ++ ['\r']
  else if c = 't' then valStr ++ ['\t']
  else if c = 'v' then valStr ++ [Char.ofNat 11]
  else valStr ++ [c]

/-- The inner loop: the value up to the next separator, whether that ends the row, and what is left. At the
end of the input there is none. -/
def scanValue (valStr : Text) : (inEscape : Bool) → Text → Option (Text × Bool × Text)
  | _, [] => none
  | inEscape, c :: rest =>
    if inEscape then scanValue (pushEscaped valStr c) false rest
    else if c = '\t' then some (valStr, false, rest)
    else if c = '\n' then some (valStr, true, rest)
    else if c = '\\' then scanValue valStr true rest
    else scanValue (valStr ++ [c]) false rest

/-- `\N`. -/
def nullText : Text := ['\\', 'N']

def convertValue (column : TextType) (valStr : Text) : Except TableRowConversionError TextCell :=
  if valStr = nullText then .ok .null else (tryFromStr column valStr).mapError .invalidValue

/-- The outer loop, over the values. -/
def convertValues : List TextType → (rowTerminated : Bool) → Text → Except TableRowConversionError (List TextCell)
  | columns, rowTerminated, chars =>
    match scanValue [] false chars with
    | none => if rowTerminated then .ok [] else .error .unterminatedRow
    | some (valStr, ended, rest) =>
      match columns with
      | [] => .error .numColsMismatch
      | column :: columns => do
        let value ← convertValue column valStr
        let values ← convertValues columns (rowTerminated || ended) rest
        return value :: values

/-- `TableRowConverter::try_from`. -/
def convertRow (row : ByteArray) (columns : List TextType) : Except TableRowConversionError (List TextCell) :=
  match String.fromUTF8? row with
  | none => .error .invalidString
  | some rowStr => convertValues columns false rowStr.toList

/-! ## What Postgres writes -/

def copyEscape (c : Char) : Text :=
  if c = '\\' then ['\\', '\\']
  else if c = Char.ofNat 8 then ['\\', 'b']
  else if c = Char.ofNat 12 then ['\\', 'f']
  else if c = '\n' then ['\\', 'n']
  else if c = '\r' then ['\\', 'r']
  else if c = '\t' then ['\\', 't']
  else if c = Char.ofNat 11 then ['\\', 'v']
  else [c]

def copyField : Option Text → Text
  | none => nullText
  | some s => s.flatMap copyEscape

/-- The line of a row. -/
def copyText (fields : List (Option Text)) : Text := ['\t'].intercalate (fields.map copyField) ++ ['\n']

def copyLine (fields : List (Option Text)) : ByteArray := (String.ofList (copyText fields)).toByteArray

def cellOf : Option Text → TextCell
  | none => .null
  | some s => .string s

/-! ## Reading a line -/

section
variable {valStr rest : Text} {c : Char}

/-- An escape is read as the character that it stands for. -/
theorem scanValue_escape : scanValue valStr false (copyEscape c ++ rest) = scanValue (valStr ++ [c]) false rest := by
  unfold copyEscape
  split_ifs with hbackslash hb hf hn hr ht hv
  · subst hbackslash
    simp [scanValue, pushEscaped]
  · subst hb
    simp [scanValue, pushEscaped]
  · subst hf
    simp [scanValue, pushEscaped]
  · subst hn
    simp [scanValue, pushEscaped]
  · subst hr
    simp [scanValue, pushEscaped]
  · subst ht
    simp [scanValue, pushEscaped]
  · subst hv
    simp [scanValue, pushEscaped]
  · simp [scanValue, hbackslash, hn, ht]

theorem scanValue_string (s : Text) :
    scanValue valStr false (s.flatMap copyEscape ++ rest) = scanValue (valStr ++ s) false rest := by
  induction s generalizing valStr with
  | nil => simp
  | cons c s ih =>
    rw [List.flatMap_cons, List.append_assoc, scanValue_escape, ih, List.append_assoc]
    rfl

/-- The text of a field after its escapes are decoded. -/
def decoded (field : Option Text) : Text := field.getD nullText

theorem scanValue_field (field : Option Text) :
    scanValue [] false (copyField field ++ rest) = scanValue (decoded field) false rest := by
  cases field with
  | none => rfl
  | some s => exact scanValue_string s

theorem scanValue_tab : scanValue valStr false ('\t' :: rest) = some (valStr, false, rest) := by
  simp [scanValue]

theorem scanValue_newline : scanValue valStr false ('\n' :: rest) = some (valStr, true, rest) := by
  simp [scanValue]

end

/-- The cell that the parser makes of a field. -/
def readCell (field : Option Text) : TextCell := if decoded field = nullText then .null else .string (decoded field)

theorem convertValue_decoded (column : TextType) (field : Option Text) :
    convertValue column (decoded field) = .ok (readCell field) := by
  unfold convertValue readCell
  split
  · rfl
  · cases column <;> rfl

/-- A field is read back unless it is the string `\N`. -/
theorem readCell_eq_iff {field : Option Text} : readCell field = cellOf field ↔ field ≠ some nullText := by
  cases field with
  | none => simp [readCell, decoded, cellOf]
  | some s =>
    unfold readCell
    by_cases hnull : s = nullText
    · simp [decoded, cellOf, hnull]
    · simp [decoded, cellOf, hnull]

theorem copyText_cons (field next : Option Text) (rest : List (Option Text)) :
    copyText (field :: next :: rest) = copyField field ++ '\t' :: copyText (next :: rest) := by
  simp [copyText, List.intercalate]

/-- A line is read up to its end, unless the columns end first. -/
theorem convertValues_copyText (columns : List TextType) (rowTerminated : Bool) (field : Option Text)
    (rest : List (Option Text)) : convertValues columns rowTerminated (copyText (field :: rest)) =
      if columns.length ≤ rest.length then .error .numColsMismatch else .ok ((field :: rest).map readCell) := by
  induction rest generalizing columns rowTerminated field with
  | nil =>
    have hline : copyText [field] = copyField field ++ '\n' :: [] := by simp [copyText, List.intercalate]
    rw [hline, convertValues, scanValue_field, scanValue_newline]
    cases columns with
    | nil => rfl
    | cons column columns =>
      dsimp only
      rw [convertValue_decoded, convertValues]
      simp [scanValue]
  | cons next rest ih =>
    rw [copyText_cons, convertValues, scanValue_field, scanValue_tab]
    cases columns with
    | nil => rfl
    | cons column columns =>
      dsimp only
      rw [convertValue_decoded, ih]
      simp only [List.length_cons, Nat.add_le_add_iff_right]
      split
      · rfl
      · rfl

theorem convertRow_copyLine (columns : List TextType) (fields : List (Option Text)) :
    convertRow (copyLine fields) columns = convertValues columns false (copyText fields) := by
  have hread : String.fromUTF8? (copyLine fields) = some (String.ofList (copyText fields)) := by
    unfold String.fromUTF8?
    rw [copyLine, dif_pos (String.isValidUTF8 _)]
    rfl
  rw [convertRow, hread]
  dsimp only
  rw [String.toList_ofList]

/-- The line of a row is read back as the row if it has as many fields as there are columns, and it is an
error otherwise. -/
structure InvertsCopy (columns : List TextType) (fields : List (Option Text)) : Prop where
  inverts : fields.length = columns.length → convertRow (copyLine fields) columns = .ok (fields.map cellOf)
  rejects : fields.length ≠ columns.length → ∃ e, convertRow (copyLine fields) columns = .error e

/-- What is read of a line. -/
theorem convertRow_line (columns : List TextType) {fields : List (Option Text)} (hne : fields ≠ []) :
    convertRow (copyLine fields) columns =
      if columns.length < fields.length then .error .numColsMismatch else .ok (fields.map readCell) := by
  obtain ⟨field, rest, rfl⟩ := List.exists_cons_of_ne_nil hne
  rw [convertRow_copyLine, convertValues_copyText, List.length_cons]
  simp only [Nat.lt_succ_iff]

/-- Too many fields are noticed and too few are not; the fields of a full row are read back unless one is
the string `\N`. -/
theorem invertsCopy_iff (columns : List TextType) {fields : List (Option Text)} (hne : fields ≠ []) :
    InvertsCopy columns fields ↔
      columns.length < fields.length ∨ columns.length = fields.length ∧ some nullText ∉ fields := by
  have hread : fields.map readCell = fields.map cellOf ↔ some nullText ∉ fields := by
    simp only [List.map_inj_left, readCell_eq_iff]
    exact ⟨fun h hmem => h _ hmem rfl, fun h field hmem heq => h (heq ▸ hmem)⟩
  obtain hlt | heq | hgt := Nat.lt_trichotomy columns.length fields.length
  · refine iff_of_true ⟨fun h => absurd h (Nat.ne_of_gt hlt), fun _ => ⟨.numColsMismatch, ?_⟩⟩ (.inl hlt)
    rw [convertRow_line columns hne, if_pos hlt]
  · have hline : convertRow (copyLine fields) columns = .ok (fields.map readCell) := by
      rw [convertRow_line columns hne, if_neg (by omega)]
    constructor
    · intro h
      have hok := h.inverts heq.symm
      rw [hline] at hok
      exact .inr ⟨heq, hread.mp (Except.ok.inj hok)⟩
    · rintro (hlt | ⟨-, hnull⟩)
      · omega
      · exact ⟨fun _ => by rw [hline, hread.mpr hnull], fun hlen => absurd heq.symm hlen⟩
  · refine iff_of_false (fun h => ?_) (by omega)
    obtain ⟨e, he⟩ := h.rejects (by omega)
    rw [convertRow_line columns hne, if_neg (by omega)] at he
    cases he

theorem invertsCopy_iff_tab : InvertsCopy [.text, .text] [none, some "a\tb\\".toList] :=
  (invertsCopy_iff [.text, .text] (by simp)).mpr (.inr ⟨rfl, by decide⟩)

/-- The string `\N` becomes NULL, and a row with a field too few is accepted. -/
theorem copy_misread : ¬ InvertsCopy [.text] [some nullText] ∧ ¬ InvertsCopy [.text, .text] [some "a".toList] := by
  constructor
  · intro h
    have hread : convertRow (copyLine [some nullText]) [.text] = .ok [.null] := by
      rw [convertRow_line _ (by simp)]
      rfl
    cases hread.symm.trans (h.inverts rfl)
  · intro h
    have hread : convertRow (copyLine [some "a".toList]) [.text, .text] = .ok [.string "a".toList] := by
      rw [convertRow_line _ (by simp)]
      rfl
    obtain ⟨e, he⟩ := h.rejects (by decide)
    cases hread.symm.trans he

end Moonlink.Replication
