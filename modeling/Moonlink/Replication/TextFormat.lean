-- SUMMARY: The text format of Postgres arrays and composite values: the parsers, what Postgres prints, and when the parsers read it back.
import Moonlink.Lib.Panics
import Moonlink.Lib.Text

/-!
# Postgres arrays and composite values as text

An array is printed as `{a,b}` and a composite value as `(a,b)`, with quotes around elements
that would be misread. The quoting differs: arrays escape with a backslash and print NULL
as `NULL`, composite values double quotes and backslashes and print nothing for NULL. An
array of composite values is quoted twice.

A text is the list of its characters. Fields are of the text types, whose values are taken as
they are; values of other types are parsed further, which is left out.
-/

namespace Moonlink.Replication

open Lib

abbrev Text : Type := List Char

/-- The types of text, apart from those that are padded with blanks. -/
inductive TextType where
  | varchar
  | name
  | text
  deriving DecidableEq, Repr

inductive TextCell where
  | null
  | string (s : Text)
  /-- `Cell::Array(ArrayCell::String(..))`. -/
  | stringArray (elements : List (Option Text))
  | composite (values : List TextCell)
  /-- `Cell::Array(ArrayCell::Composite(..))`. -/
  | compositeArray (elements : List (Option (List TextCell)))

inductive FromTextError where
  /-- "input too short", of an array. -/
  | arrayInputTooShort
  | missingBraces
  /-- "input too short", of a composite value. -/
  | compositeInputTooShort
  | missingParentheses
  | fieldCountMismatch
  deriving DecidableEq, Repr

/-- Why parsing fails: an error, or the `unreachable!` of `parse_composite_array`. -/
inductive FromTextFailure where
  | error (e : FromTextError)
  | unreachable
  deriving DecidableEq, Repr

/-! ## The parsers -/

/-- The length in bytes. -/
def byteLen (s : Text) : Nat := (s.map Char.utf8Size).sum

/-- The part between the first and the last character. -/
def inner (s : Text) : Text := s.tail.dropLast

/-- The variables of the loops: what was read of a value, and how. -/
structure Scan where
  valStr : Text
  inQuotes : Bool
  inEscape : Bool
  valQuoted : Bool

def Scan.start : Scan := ⟨[], false, false, false⟩

def Scan.push (scan : Scan) (c : Char) : Scan := { scan with valStr := scan.valStr ++ [c] }

/-- The values between the separators, each with whether it was quoted. A backslash escapes the next
character, in composite values only between quotes. -/
def scanValues (escapesOutside : Bool) : Scan → Text → List (Bool × Text)
  | scan, [] => [(scan.valQuoted, scan.valStr)]
  | scan, c :: rest =>
    if scan.inEscape then scanValues escapesOutside { scan.push c with inEscape := false } rest
    else if c = '"' then
      if scan.inQuotes then
        if rest.head? = some '"' then scanValues escapesOutside (scan.push '"') rest.tail
        else scanValues escapesOutside { scan with inQuotes := false } rest
      else scanValues escapesOutside { scan with valQuoted := true, inQuotes := true } rest
    else if c = '\\' ∧ (escapesOutside ∨ scan.inQuotes) then
      scanValues escapesOutside { scan with inEscape := true } rest
    else if c = ',' ∧ ¬ scan.inQuotes then
      (scan.valQuoted, scan.valStr) :: scanValues escapesOutside { scan with valStr := [], valQuoted := false } rest
    else scanValues escapesOutside (scan.push c) rest
termination_by _ text => text.length
decreasing_by all_goals simp only [List.length_cons, List.length_tail]; omega

/-- The values of an array or a composite value, none if there is nothing between the delimiters. -/
def rawValues (escapesOutside : Bool) (inner : Text) : List (Bool × Text) :=
  if inner.isEmpty then [] else scanValues escapesOutside .start inner

section
variable {T : Type} (parse : Text → Except FromTextFailure (Option T))

/-- A value of an array. Of the characters that `to_lowercase` maps to those of `null`, none is outside ASCII. -/
def parseElement (raw : Bool × Text) : Except FromTextFailure (Option T) :=
  if !raw.1 ∧ toLowercase raw.2 = "null".toList then return none else parse raw.2

def parseArray (m : List (Option T) → TextCell) (str : Text) : Except FromTextFailure TextCell := do
  if byteLen str < 2 then throw (.error .arrayInputTooShort)
  if str.head? ≠ some '{' ∨ str.getLast? ≠ some '}' then throw (.error .missingBraces)
  let res ← (rawValues true (inner str)).mapM (parseElement parse)
  return m res

end

/-- `try_from_str`, for the text types. -/
def tryFromStr : TextType → Text → Except FromTextFailure TextCell
  | .varchar, str | .name, str | .text, str => .ok (.string str)

/-- Each value goes to the next field. -/
def parseFields : List TextType → List (Bool × Text) → Except FromTextFailure (List TextCell)
  | [], [] => .ok []
  | [], _ :: _ => .error (.error .fieldCountMismatch)
  | _ :: _, [] => .error (.error .fieldCountMismatch)
  | field :: fields, raw :: raws => do
    let val ← if !raw.1 ∧ raw.2.isEmpty then pure .null else tryFromStr field raw.2
    let res ← parseFields fields raws
    return val :: res

def parseComposite (fields : List TextType) (s : Text) : Except FromTextFailure TextCell := do
  if byteLen s < 2 then throw (.error .compositeInputTooShort)
  if s.head? ≠ some '(' ∨ s.getLast? ≠ some ')' then throw (.error .missingParentheses)
  let res ← parseFields fields (rawValues false (inner s))
  return .composite res

def parseCompositeArray (fields : List TextType) (s : Text) : Except FromTextFailure TextCell :=
  parseArray (fun str => do
    match ← parseComposite fields str with
    | .composite values => return some values
    | _ => throw .unreachable) .compositeArray s

/-- An array of text. -/
def parseTextArray (s : Text) : Except FromTextFailure TextCell :=
  parseArray (fun str => .ok (some str)) .stringArray s

/-! ## What Postgres prints -/

def isSpace (c : Char) : Bool := [' ', '\t', '\n', '\r', Char.ofNat 11, Char.ofNat 12].contains c

/-- Quotes around a text, if it needs them, with an escape for each character. -/
def quote (needsQuotes : Bool) (escape : Char → Text) (s : Text) : Text :=
  if needsQuotes then '"' :: s.flatMap escape ++ ['"'] else s

def isSpecial (c : Char) : Bool := c = '"' ∨ c = '\\'

/-- Elements that `array_out` quotes. -/
def arrayNeedsQuotes (s : Text) : Bool :=
  s.isEmpty ∨ toLowercase s = "null".toList ∨
    s.any fun c => isSpecial c ∨ c = '{' ∨ c = '}' ∨ c = ',' ∨ isSpace c

def arrayEscape (c : Char) : Text := if isSpecial c then ['\\', c] else [c]

def arrayOutElement : Option Text → Text
  | none => "NULL".toList
  | some s => quote (arrayNeedsQuotes s) arrayEscape s

/-- `array_out`, of an array with one dimension. -/
def arrayOut (elements : List (Option Text)) : Text :=
  '{' :: [','].intercalate (elements.map arrayOutElement) ++ ['}']

/-- Fields that `record_out` quotes. -/
def recordNeedsQuotes (s : Text) : Bool :=
  s.isEmpty ∨ s.any fun c => isSpecial c ∨ c = '(' ∨ c = ')' ∨ c = ',' ∨ isSpace c

def recordEscape (c : Char) : Text := if isSpecial c then [c, c] else [c]

def recordOutField : Option Text → Text
  | none => []
  | some s => quote (recordNeedsQuotes s) recordEscape s

def recordOut (fields : List (Option Text)) : Text :=
  '(' :: [','].intercalate (fields.map recordOutField) ++ [')']

/-! ## Reading one value -/

section
variable {escapesOutside : Bool} {val rest : Text} {c : Char} {quoted : Bool}

@[simp] theorem scanValues_nil (scan : Scan) :
    scanValues escapesOutside scan [] = [(scan.valQuoted, scan.valStr)] := by rw [scanValues]

theorem scanValues_escaped :
    scanValues escapesOutside ⟨val, true, true, quoted⟩ (c :: rest) =
      scanValues escapesOutside ⟨val ++ [c], true, false, quoted⟩ rest := by
  rw [scanValues]
  rfl

theorem scanValues_open :
    scanValues escapesOutside ⟨val, false, false, quoted⟩ ('"' :: rest) =
      scanValues escapesOutside ⟨val, true, false, true⟩ rest := by
  rw [scanValues]
  rfl

theorem scanValues_doubled :
    scanValues escapesOutside ⟨val, true, false, quoted⟩ ('"' :: '"' :: rest) =
      scanValues escapesOutside ⟨val ++ ['"'], true, false, quoted⟩ rest := by
  rw [scanValues]
  rfl

theorem scanValues_close (h : rest.head? ≠ some '"') :
    scanValues escapesOutside ⟨val, true, false, quoted⟩ ('"' :: rest) =
      scanValues escapesOutside ⟨val, false, false, quoted⟩ rest := by
  rw [scanValues]
  simp [h]

theorem scanValues_backslash :
    scanValues escapesOutside ⟨val, true, false, quoted⟩ ('\\' :: rest) =
      scanValues escapesOutside ⟨val, true, true, quoted⟩ rest := by
  rw [scanValues]
  simp

theorem scanValues_push {inQuotes : Bool} (hspecial : ¬ isSpecial c) (hseparator : c = ',' → inQuotes) :
    scanValues escapesOutside ⟨val, inQuotes, false, quoted⟩ (c :: rest) =
      scanValues escapesOutside ⟨val ++ [c], inQuotes, false, quoted⟩ rest := by
  simp only [isSpecial, decide_eq_true_eq, not_or] at hspecial
  rw [scanValues]
  by_cases hc : c = ','
  · simp [hc, hseparator hc, Scan.push]
  · simp [hspecial, hc, Scan.push]

theorem scanValues_separator :
    scanValues escapesOutside ⟨val, false, false, quoted⟩ (',' :: rest) =
      (quoted, val) :: scanValues escapesOutside .start rest := by
  rw [scanValues]
  rfl

/-- Between quotes, the escape of a character is read as the character. -/
def ReadsBack (escapesOutside : Bool) (escape : Char → Text) : Prop :=
  ∀ val c rest, scanValues escapesOutside ⟨val, true, false, true⟩ (escape c ++ rest) =
    scanValues escapesOutside ⟨val ++ [c], true, false, true⟩ rest

theorem arrayEscape_readsBack : ReadsBack true arrayEscape := by
  intro val c rest
  unfold arrayEscape
  split
  · exact scanValues_backslash.trans scanValues_escaped
  · rename_i hspecial
    exact scanValues_push hspecial fun _ => rfl

theorem recordEscape_readsBack : ReadsBack false recordEscape := by
  intro val c rest
  unfold recordEscape
  split
  · rename_i hspecial
    have hcases : c = '"' ∨ c = '\\' := by simpa [isSpecial] using hspecial
    rcases hcases with rfl | rfl
    · exact scanValues_doubled
    · exact scanValues_backslash.trans scanValues_escaped
  · rename_i hspecial
    exact scanValues_push hspecial fun _ => rfl

variable {escape : Char → Text}

theorem scanValues_body (h : ReadsBack escapesOutside escape) (s val rest : Text) :
    scanValues escapesOutside ⟨val, true, false, true⟩ (s.flatMap escape ++ rest) =
      scanValues escapesOutside ⟨val ++ s, true, false, true⟩ rest := by
  induction s generalizing val with
  | nil => rw [List.append_nil]; rfl
  | cons c s ih => rw [List.flatMap_cons, List.append_assoc, h, ih, List.append_assoc, List.singleton_append]

/-- Nothing in the text means anything to the parser. -/
def Plain (s : Text) : Prop := ∀ c ∈ s, ¬ isSpecial c ∧ c ≠ ','

theorem scanValues_plain {s : Text} (h : Plain s) (val rest : Text) :
    scanValues escapesOutside ⟨val, false, false, false⟩ (s ++ rest) =
      scanValues escapesOutside ⟨val ++ s, false, false, false⟩ rest := by
  induction s generalizing val with
  | nil => rw [List.append_nil]; rfl
  | cons c s ih =>
    have hc := h c List.mem_cons_self
    rw [List.cons_append, scanValues_push hc.1 fun heq => absurd heq hc.2,
      ih fun d hd => h d (List.mem_cons_of_mem _ hd), List.append_assoc, List.singleton_append]

/-- A value is read up to the separator. -/
theorem scanValues_quote (h : ReadsBack escapesOutside escape) (rest : Text) {needsQuotes : Bool} {s : Text}
    (hplain : needsQuotes = false → Plain s) (hrest : rest.head? ≠ some '"') :
    scanValues escapesOutside .start (quote needsQuotes escape s ++ rest) =
      scanValues escapesOutside ⟨s, false, false, needsQuotes⟩ rest := by
  cases needsQuotes with
  | true =>
    calc scanValues escapesOutside .start (quote true escape s ++ rest)
        = scanValues escapesOutside .start ('"' :: (s.flatMap escape ++ '"' :: rest)) := by simp [quote]
      _ = scanValues escapesOutside ⟨s, true, false, true⟩ ('"' :: rest) :=
          scanValues_open.trans (scanValues_body h s [] _)
      _ = _ := scanValues_close hrest
  | false => exact scanValues_plain (hplain rfl) [] rest

end

/-! ## Reading a list of values -/

theorem intercalate_cons_cons (a b : Text) (rest : List Text) :
    [','].intercalate (a :: b :: rest) = a ++ ',' :: [','].intercalate (b :: rest) := by simp [List.intercalate]

/-- Values are printed one after the other, with what the parser sees of each. -/
theorem scanValues_intercalate {α : Type} {escapesOutside : Bool} {escape : Char → Text}
    (h : ReadsBack escapesOutside escape) {raw : α → Bool × Text} {elements : List α} (hne : elements ≠ [])
    (hplain : ∀ a ∈ elements, (raw a).1 = false → Plain (raw a).2) :
    scanValues escapesOutside .start ([','].intercalate (elements.map fun a => quote (raw a).1 escape (raw a).2)) =
      elements.map raw := by
  induction elements with
  | nil => exact absurd rfl hne
  | cons a elements ih =>
    cases elements with
    | nil =>
      have hread := scanValues_quote h [] (hplain a List.mem_cons_self) (by simp)
      simpa using hread
    | cons next elements =>
      have hrest := ih (List.cons_ne_nil _ _) fun a' ha' => hplain a' (List.mem_cons_of_mem _ ha')
      rw [List.map_cons, List.map_cons, intercalate_cons_cons,
        scanValues_quote h _ (hplain a List.mem_cons_self) (by simp), scanValues_separator]
      exact congrArg _ hrest

theorem inner_delimited (first last : Char) (body : Text) : inner (first :: body ++ [last]) = body := by
  simp [inner]

theorem delimiters (first last : Char) (body : Text) :
    (first :: body ++ [last]).head? = some first ∧ (first :: body ++ [last]).getLast? = some last :=
  ⟨rfl, List.getLast?_concat⟩

theorem two_le_byteLen (first last : Char) (body : Text) : 2 ≤ byteLen (first :: body ++ [last]) := by
  have hfirst := first.utf8Size_pos
  have hlast := last.utf8Size_pos
  simp only [byteLen, List.cons_append, List.map_cons, List.map_append, List.sum_cons, List.sum_append]
  simp only [List.map_nil, List.sum_nil]
  omega

/-! ## Arrays -/

/-- What the parser sees of an element. -/
def rawElement : Option Text → Bool × Text
  | none => (false, "NULL".toList)
  | some s => (arrayNeedsQuotes s, s)

theorem arrayOutElement_eq (element : Option Text) :
    arrayOutElement element = quote (rawElement element).1 arrayEscape (rawElement element).2 := by
  cases element <;> rfl

theorem rawElement_plain (element : Option Text) (h : (rawElement element).1 = false) :
    Plain (rawElement element).2 := by
  cases element with
  | none => simp [Plain, rawElement, isSpecial]
  | some s =>
    intro c hc
    simp only [rawElement, arrayNeedsQuotes, decide_eq_false_iff_not, not_or, List.any_eq_true, not_exists,
      not_and, decide_eq_true_eq] at h
    obtain ⟨-, -, hall⟩ := h
    exact ⟨(hall c hc).1, (hall c hc).2.2.2.1⟩

/-- What an element is read as. -/
def readElement {T : Type} (parse : Text → Except FromTextFailure (Option T)) :
    Option Text → Except FromTextFailure (Option T)
  | none => .ok none
  | some s => parse s

theorem parseElement_rawElement {T : Type} {parse : Text → Except FromTextFailure (Option T)}
    (element : Option Text) : parseElement parse (rawElement element) = readElement parse element := by
  cases element with
  | none => rfl
  | some s =>
    rw [parseElement, if_neg, readElement, rawElement]
    rintro ⟨hquoted, hnull⟩
    simp [rawElement, arrayNeedsQuotes, show toLowercase s = "null".toList from hnull] at hquoted

theorem arrayOutElement_ne_nil (element : Option Text) : arrayOutElement element ≠ [] := by
  cases element with
  | none => decide
  | some s =>
    rw [arrayOutElement, quote]
    split
    · exact List.cons_ne_nil _ _
    · rename_i h
      rintro rfl
      exact h rfl

theorem rawValues_arrayOut (elements : List (Option Text)) :
    rawValues true (inner (arrayOut elements)) = elements.map rawElement := by
  rw [arrayOut, inner_delimited, rawValues]
  cases elements with
  | nil => rfl
  | cons element rest =>
    have hne : ¬ ([','].intercalate ((element :: rest).map arrayOutElement)).isEmpty := by
      cases rest with
      | nil => simpa using arrayOutElement_ne_nil element
      | cons next rest => simp
    rw [if_neg hne, funext arrayOutElement_eq]
    exact scanValues_intercalate arrayEscape_readsBack (List.cons_ne_nil _ _) fun e _ => rawElement_plain e

/-- An array is read element by element. -/
theorem parseArray_arrayOut {T : Type} (parse : Text → Except FromTextFailure (Option T))
    (m : List (Option T) → TextCell) (elements : List (Option Text)) :
    parseArray parse m (arrayOut elements) = (do return m (← elements.mapM (readElement parse))) := by
  have hlen : ¬ byteLen (arrayOut elements) < 2 := Nat.not_lt.mpr (two_le_byteLen _ _ _)
  have hbraces : ¬ ((arrayOut elements).head? ≠ some '{' ∨ (arrayOut elements).getLast? ≠ some '}') := by
    rw [arrayOut, (delimiters _ _ _).1, (delimiters _ _ _).2]
    simp
  rw [parseArray, if_neg hlen, if_neg hbraces, rawValues_arrayOut, List.mapM_map]
  simp only [Function.comp_def, parseElement_rawElement]

theorem parseTextArray_arrayOut (elements : List (Option Text)) :
    parseTextArray (arrayOut elements) = .ok (.stringArray elements) := by
  have hread : ∀ element ∈ elements, readElement (fun str => .ok (some str)) element = .ok (id element) := by
    intro element _
    cases element <;> rfl
  rw [parseTextArray, parseArray_arrayOut, mapM_eq_ok hread, List.map_id]
  rfl

/-! ## Composite values -/

/-- What the parser sees of a field. -/
def rawField : Option Text → Bool × Text
  | none => (false, [])
  | some s => (recordNeedsQuotes s, s)

theorem recordOutField_eq (field : Option Text) :
    recordOutField field = quote (rawField field).1 recordEscape (rawField field).2 := by
  cases field <;> rfl

theorem rawField_plain (field : Option Text) (h : (rawField field).1 = false) : Plain (rawField field).2 := by
  cases field with
  | none => exact fun c hc => by cases hc
  | some s =>
    intro c hc
    simp only [rawField, recordNeedsQuotes, decide_eq_false_iff_not, not_or, List.any_eq_true, not_exists,
      not_and, decide_eq_true_eq] at h
    exact ⟨(h.2 c hc).1, (h.2 c hc).2.2.2.1⟩

theorem recordOutField_ne_nil (s : Text) : recordOutField (some s) ≠ [] := by
  rw [recordOutField, quote]
  split
  · exact List.cons_ne_nil _ _
  · rename_i h
    rintro rfl
    exact h rfl

variable {fields : List (Option Text)}

/-- A single NULL leaves nothing between the parentheses. -/
theorem rawValues_recordOut (hne : fields ≠ []) :
    rawValues false (inner (recordOut fields)) = if fields = [none] then [] else fields.map rawField := by
  rw [recordOut, inner_delimited, rawValues]
  by_cases hnull : fields = [none]
  · subst hnull
    rfl
  · have hbody : ¬ ([','].intercalate (fields.map recordOutField)).isEmpty := by
      rcases fields with _ | ⟨field, _ | ⟨next, rest⟩⟩
      · exact absurd rfl hne
      · cases field with
        | none => exact absurd rfl hnull
        | some s => simpa using recordOutField_ne_nil s
      · simp
    rw [if_neg hbody, if_neg hnull, funext recordOutField_eq]
    exact scanValues_intercalate recordEscape_readsBack hne fun field _ => rawField_plain field

/-- The cell of an optional text. -/
def textCell : Option Text → TextCell
  | none => .null
  | some s => .string s

theorem tryFromStr_eq (typ : TextType) (str : Text) : tryFromStr typ str = .ok (.string str) := by cases typ <;> rfl

variable {types : List TextType}

theorem parseFields_rawField (h : types.length = fields.length) :
    parseFields types (fields.map rawField) = .ok (fields.map textCell) := by
  induction fields generalizing types with
  | nil =>
    obtain rfl := List.length_eq_zero_iff.mp h
    rfl
  | cons field fields ih =>
    cases types with
    | nil => cases h
    | cons typ types =>
      rw [List.map_cons, parseFields, ih (Nat.succ.inj h)]
      cases field with
      | none => rfl
      | some s =>
        have hnull : ¬ ((!(rawField (some s)).1) = true ∧ (rawField (some s)).2.isEmpty = true) := by
          rintro ⟨hquoted, hempty⟩
          simp only [rawField, recordNeedsQuotes] at hquoted hempty
          simp [hempty] at hquoted
        rw [if_neg hnull, tryFromStr_eq]
        rfl

theorem parseComposite_recordOut (hne : fields ≠ [])
    (h : types.length = fields.length) :
    parseComposite types (recordOut fields) =
      if fields = [none] then .error (.error .fieldCountMismatch) else .ok (.composite (fields.map textCell)) := by
  have hlen : ¬ byteLen (recordOut fields) < 2 := Nat.not_lt.mpr (two_le_byteLen _ _ _)
  have hparens : ¬ ((recordOut fields).head? ≠ some '(' ∨ (recordOut fields).getLast? ≠ some ')') := by
    rw [recordOut, (delimiters _ _ _).1, (delimiters _ _ _).2]
    simp
  rw [parseComposite, if_neg hlen, if_neg hparens, rawValues_recordOut hne]
  by_cases hnull : fields = [none]
  · rw [if_pos hnull, if_pos hnull]
    subst hnull
    rcases types with _ | ⟨typ, types⟩
    · cases h
    · rfl
  · rw [if_neg hnull, if_neg hnull, parseFields_rawField h]
    rfl

/-- A field list of a composite type is read back unless it is a single NULL. -/
theorem parseComposite_recordOut_iff (hne : types ≠ [])
    (h : types.length = fields.length) :
    parseComposite types (recordOut fields) = .ok (.composite (fields.map textCell)) ↔ fields ≠ [none] := by
  have hfields : fields ≠ [] := by
    rintro rfl
    exact hne (List.length_eq_zero_iff.mp h)
  rw [parseComposite_recordOut hfields h]
  by_cases hnull : fields = [none]
  · rw [if_pos hnull]
    exact iff_of_false (fun heq => by cases heq) (not_not.mpr hnull)
  · rw [if_neg hnull]
    exact iff_of_true rfl hnull

/-- An element of an array of composite values. -/
def parseCompositeElement (types : List TextType) (str : Text) : Except FromTextFailure (Option (List TextCell)) := do
  match ← parseComposite types str with
  | .composite values => return some values
  | _ => throw .unreachable

theorem readElement_recordOut (hne : types ≠ []) {row : Option (List (Option Text))}
    (h : ∀ fields, row = some fields → types.length = fields.length) :
    readElement (parseCompositeElement types) (row.map recordOut) =
      if row = some [none] then .error (.error .fieldCountMismatch) else .ok (row.map (List.map textCell)) := by
  cases row with
  | none => rfl
  | some fields =>
    have hlen := h fields rfl
    have hfields : fields ≠ [] := by
      rintro rfl
      exact hne (List.length_eq_zero_iff.mp hlen)
    rw [Option.map_some, readElement, parseCompositeElement, parseComposite_recordOut hfields hlen]
    by_cases hnull : fields = [none]
    · rw [if_pos hnull, if_pos (congrArg some hnull)]
      rfl
    · rw [if_neg hnull, if_neg fun heq => hnull (Option.some.inj heq)]
      rfl

theorem parseCompositeArray_arrayOut_iff (hne : types ≠ [])
    {rows : List (Option (List (Option Text)))} (h : ∀ fields, some fields ∈ rows → types.length = fields.length) :
    parseCompositeArray types (arrayOut (rows.map (Option.map recordOut))) =
        .ok (.compositeArray (rows.map (Option.map (List.map textCell)))) ↔ some [none] ∉ rows := by
  have hparse : parseCompositeArray types (arrayOut (rows.map (Option.map recordOut))) = (do
      return .compositeArray (← rows.mapM fun row => readElement (parseCompositeElement types) (row.map recordOut))) := by
    have hall := parseArray_arrayOut (parseCompositeElement types) .compositeArray (rows.map (Option.map recordOut))
    rw [List.mapM_map] at hall
    exact hall
  have hrow : ∀ row ∈ rows, readElement (parseCompositeElement types) (row.map recordOut) =
      if row = some [none] then .error (.error .fieldCountMismatch) else .ok (row.map (List.map textCell)) := by
    intro row hmem
    refine readElement_recordOut hne fun fields heq => h fields ?_
    rw [← heq]
    exact hmem
  rw [hparse]
  constructor
  · intro hok hmem
    obtain ⟨values, hvalues, -⟩ := bind_eq_ok.mp hok
    obtain ⟨value, hvalue⟩ := exists_eq_ok_of_mapM hvalues hmem
    rw [hrow _ hmem, if_pos rfl] at hvalue
    cases hvalue
  · intro hnone
    have hread : ∀ row ∈ rows, readElement (parseCompositeElement types) (row.map recordOut) =
        .ok (row.map (List.map textCell)) := by
      intro row hmem
      have hrowNone : row ≠ some [none] := by
        rintro rfl
        exact hnone hmem
      rw [hrow row hmem, if_neg hrowNone]
    rw [mapM_eq_ok hread]
    rfl

/-- What Postgres prints is read back: every array of text, and exactly those composite values that are not a
single NULL, alone or in an array. -/
theorem printed_read_back {types : List TextType} (hne : types ≠ []) :
    (∀ elements, parseTextArray (arrayOut elements) = .ok (.stringArray elements)) ∧
      (∀ fields : List (Option Text), types.length = fields.length →
        (parseComposite types (recordOut fields) = .ok (.composite (fields.map textCell)) ↔ fields ≠ [none])) ∧
      ∀ rows : List (Option (List (Option Text))), (∀ fields, some fields ∈ rows → types.length = fields.length) →
        (parseCompositeArray types (arrayOut (rows.map (Option.map recordOut))) =
          .ok (.compositeArray (rows.map (Option.map (List.map textCell)))) ↔ some [none] ∉ rows) :=
  ⟨parseTextArray_arrayOut, fun _ h => parseComposite_recordOut_iff hne h,
    fun _ h => parseCompositeArray_arrayOut_iff hne h⟩

theorem printed_read_back_one_field :
    (∀ elements, parseTextArray (arrayOut elements) = .ok (.stringArray elements)) ∧
      (∀ fields : List (Option Text), [TextType.text].length = fields.length →
        (parseComposite [.text] (recordOut fields) = .ok (.composite (fields.map textCell)) ↔ fields ≠ [none])) ∧
      ∀ rows : List (Option (List (Option Text))), (∀ fields, some fields ∈ rows → [TextType.text].length = fields.length) →
        (parseCompositeArray [.text] (arrayOut (rows.map (Option.map recordOut))) =
          .ok (.compositeArray (rows.map (Option.map (List.map textCell)))) ↔ some [none] ∉ rows) :=
  printed_read_back (List.cons_ne_nil _ _)

/-- A composite value whose only field is NULL is printed as `()`, which is taken for a value without fields. -/
theorem single_null_not_read :
    recordOut [none] = "()".toList ∧
      parseComposite [.text] (recordOut [none]) = .error (.error .fieldCountMismatch) ∧
      parseComposite [.text] (recordOut [none]) ≠ .ok (.composite [.null]) := by
  refine ⟨rfl, rfl, fun h => ?_⟩
  cases h

end Moonlink.Replication
