-- SUMMARY: How file paths of a backend become paths at its data server and back, and for which bases this is right.
import Mathlib.Data.List.DropRight
import Mathlib.Data.List.Infix

/-!
# Paths at the data server

A backend hands out paths below its canonical base directory. Both functors that map them keep the
base path as it was given, and compare paths and URIs as strings.
-/

namespace Moonlink.UnionRead

/-! ## Paths -/

/-- A canonical path. -/
structure AbsolutePath where
  components : List (List Char)
  canonical : ∀ c ∈ components, c ≠ [] ∧ '/' ∉ c ∧ c ≠ ".".toList ∧ c ≠ "..".toList

/-- A URI starts with its scheme. -/
structure DataServerUri where
  text : List Char
  scheme : ∃ c rest, text = c :: rest ∧ c.isAlpha = true

/-- Each component with the slash before it. -/
def componentsText (components : List (List Char)) : List Char := components.flatMap ('/' :: ·)

namespace AbsolutePath

def text (p : AbsolutePath) : List Char :=
  if p.components.isEmpty then ['/'] else componentsText p.components

end AbsolutePath

def stripPrefix {α : Type} [BEq α] (pattern s : List α) : Option (List α) :=
  if pattern.isPrefixOf s then some (s.drop pattern.length) else none

/-- The path relative to a directory that it lies in. -/
def AbsolutePath.relativeTo (p base : AbsolutePath) : Option (List Char) :=
  match stripPrefix base.components p.components with
  | none | some [] => none
  | some components => some (componentsText components).tail

def trimStart : List Char → List Char := List.dropWhile (· == '/')

def trimEnd : List Char → List Char := List.rdropWhile (· == '/')

/-! ## The backend -/

structure MoonlinkBackend where
  basePath : List Char
  readStateFilepathRemap : List Char → List Char
  httpFilepathRemap : List Char → List Char

section Remap

variable (basePath : List Char) (dataServerUri : Option DataServerUri)

def readStateFilepathRemap (localFilepath : List Char) : List Char :=
  match dataServerUri with
  | none => localFilepath
  | some uri =>
    match stripPrefix basePath localFilepath with
    | some stripped => trimEnd uri.text ++ '/' :: trimStart stripped
    | none => localFilepath

def httpFilepathRemap (httpFilepath : List Char) : List Char :=
  match dataServerUri with
  | none => httpFilepath
  | some uri =>
    match stripPrefix (trimEnd uri.text) httpFilepath with
    | some stripped => trimEnd basePath ++ '/' :: trimStart stripped
    | none => httpFilepath

/-- The canonical form of the base path is found after the functors are made. -/
def MoonlinkBackend.new (canonicalized : AbsolutePath) : MoonlinkBackend where
  basePath := canonicalized.text
  readStateFilepathRemap := UnionRead.readStateFilepathRemap basePath dataServerUri
  httpFilepathRemap := UnionRead.httpFilepathRemap basePath dataServerUri

end Remap

/-! ## Prefixes and slashes -/

theorem stripPrefix_append {α : Type} [BEq α] [LawfulBEq α] (pattern s : List α) :
    stripPrefix pattern (pattern ++ s) = some s := by
  rw [stripPrefix, if_pos (List.isPrefixOf_iff_prefix.mpr (List.prefix_append ..)), List.drop_left]

theorem stripPrefix_eq_some_iff {α : Type} [BEq α] [LawfulBEq α] {pattern s rest : List α} :
    stripPrefix pattern s = some rest ↔ s = pattern ++ rest := by
  constructor
  · intro h
    unfold stripPrefix at h
    split at h
    · next hpattern =>
        obtain ⟨t, rfl⟩ := List.isPrefixOf_iff_prefix.mp hpattern
        rw [List.drop_left] at h
        rw [Option.some.inj h]
    · cases h
  · rintro rfl
    exact stripPrefix_append pattern rest

/-- What is left of a URI starts with its scheme. -/
theorem DataServerUri.trimEnd_text (uri : DataServerUri) : ∃ c rest, trimEnd uri.text = c :: rest ∧ c ≠ '/' := by
  obtain ⟨c, rest, htext, halpha⟩ := uri.scheme
  have hc : c ≠ '/' := by
    rintro rfl
    exact absurd halpha (by decide)
  have happend : trimEnd uri.text ++ uri.text.rtakeWhile (· == '/') = c :: rest :=
    (List.rdropWhile_append_rtakeWhile ..).trans htext
  cases hleft : trimEnd uri.text with
  | nil =>
    have hall := List.rdropWhile_eq_nil_iff.mp hleft c (htext ▸ List.mem_cons_self)
    exact absurd (by simpa using hall) hc
  | cons d left =>
    rw [hleft, List.cons_append] at happend
    exact ⟨d, left, rfl, (List.cons.inj happend).1 ▸ hc⟩

theorem AbsolutePath.text_eq (p : AbsolutePath) : ∃ rest, p.text = '/' :: rest := by
  unfold AbsolutePath.text
  cases p.components with
  | nil => exact ⟨_, rfl⟩
  | cons c components => exact ⟨c ++ componentsText components, rfl⟩

/-- No slash is at the end of components. -/
theorem AbsolutePath.trimEnd_components (p : AbsolutePath) :
    trimEnd (componentsText p.components) = componentsText p.components := by
  refine List.rdropWhile_eq_self_iff.mpr fun hne => ?_
  obtain hnil | ⟨components, c, hcomponents⟩ := p.components.eq_nil_or_concat
  · simp only [hnil] at hne
    exact absurd rfl hne
  obtain ⟨hc, hslash, -⟩ := p.canonical c (by simp [hcomponents])
  have htext : componentsText p.components = (componentsText components ++ ['/']) ++ c := by
    simp [componentsText, hcomponents]
  have hlast : (componentsText p.components).getLast hne = c.getLast hc := by
    simp only [htext, List.getLast_append_of_ne_nil _ hc]
  rw [hlast, beq_iff_eq]
  exact fun heq => hslash (heq ▸ List.getLast_mem hc)

/-- A path in a directory, split there. -/
theorem AbsolutePath.split_of_relativeTo {p base : AbsolutePath} {relative : List Char}
    (h : p.relativeTo base = some relative) :
    p.text = componentsText base.components ++ '/' :: relative ∧ trimStart relative = relative := by
  unfold AbsolutePath.relativeTo at h
  cases hstrip : stripPrefix base.components p.components with
  | none => simp [hstrip] at h
  | some components =>
    cases components with
    | nil => simp [hstrip] at h
    | cons c components =>
      have hcomponents := stripPrefix_eq_some_iff.mp hstrip
      obtain ⟨hc, hslash, -⟩ := p.canonical c (by simp [hcomponents])
      simp only [hstrip, Option.some.injEq] at h
      subst h
      constructor
      · simp [AbsolutePath.text, componentsText, hcomponents]
      · cases c with
        | nil => exact absurd rfl hc
        | cons a c =>
          have ha : a ≠ '/' := fun h => hslash (h ▸ List.mem_cons_self)
          exact List.dropWhile_cons_of_neg (by simpa using ha)

theorem AbsolutePath.ne_uri (p : AbsolutePath) (uri : DataServerUri) (rest : List Char) :
    trimEnd uri.text ++ rest ≠ p.text := by
  obtain ⟨c, left, hleft, hc⟩ := uri.trimEnd_text
  obtain ⟨path, hpath⟩ := p.text_eq
  rw [hleft, hpath, List.cons_append]
  exact fun h => hc (List.cons.inj h).1

/-! ## The round trip -/

section RoundTrip

variable {basePath : List Char} {uri : DataServerUri} {base p : AbsolutePath}

/-- The URI followed by the relative path for a path in the base directory, no change to one outside, and the path back
from the URI. -/
def RemapsBack (basePath : List Char) (uri : DataServerUri) (base p : AbsolutePath) : Prop :=
  let backend := MoonlinkBackend.new basePath (some uri) base
  backend.readStateFilepathRemap p.text = (match p.relativeTo base with
    | some relative => trimEnd uri.text ++ '/' :: relative
    | none => p.text) ∧
  backend.httpFilepathRemap (backend.readStateFilepathRemap p.text) = p.text

/-- For a path in the base directory, the given path is the canonical one, without the slash at its end or with it. It
is no beginning of a path outside. -/
def IsSeparated (basePath : List Char) (base p : AbsolutePath) : Prop :=
  match p.relativeTo base with
  | some _ => basePath = componentsText base.components ∨ basePath = componentsText base.components ++ ['/']
  | none => ¬ basePath <+: p.text

theorem readStateFilepathRemap_append (basePath : List Char) (uri : DataServerUri) (rest : List Char) :
    readStateFilepathRemap basePath (some uri) (basePath ++ rest) = trimEnd uri.text ++ '/' :: trimStart rest := by
  simp only [readStateFilepathRemap, stripPrefix_append]

/-- A path that is mapped to the server is no path any more. -/
theorem readStateFilepathRemap_eq_iff :
    readStateFilepathRemap basePath (some uri) p.text = p.text ↔ ¬ basePath <+: p.text := by
  constructor
  · rintro heq ⟨rest, hrest⟩
    rw [← hrest, readStateFilepathRemap_append, hrest] at heq
    exact p.ne_uri uri _ heq
  · intro hnot
    have hstrip : stripPrefix basePath p.text = none := if_neg fun h => hnot (List.isPrefixOf_iff_prefix.mp h)
    simp only [readStateFilepathRemap, hstrip]

theorem httpFilepathRemap_text : httpFilepathRemap basePath (some uri) p.text = p.text := by
  have hstrip : stripPrefix (trimEnd uri.text) p.text = none := by
    refine if_neg fun h => ?_
    obtain ⟨rest, hrest⟩ := List.isPrefixOf_iff_prefix.mp h
    exact p.ne_uri uri rest hrest
  simp only [httpFilepathRemap, hstrip]

/-- What is before a text without slashes at its start, but for slashes. -/
theorem eq_of_trimStart {a b relative : List Char} {rest : List Char} (hsplit : a ++ rest = b ++ '/' :: relative)
    (hrest : trimStart rest = relative) (hb : trimEnd b = b) : a = b ∨ a = b ++ ['/'] := by
  have hslashes : a ++ rest.takeWhile (· == '/') = b ++ ['/'] := by
    refine (List.append_left_inj relative).mp ?_
    rw [List.append_assoc, List.append_assoc, ← hrest]
    exact (congrArg (a ++ ·) List.takeWhile_append_dropWhile).trans (hrest ▸ hsplit)
  obtain hnil | ⟨slashes, x, hx⟩ := (rest.takeWhile (· == '/')).eq_nil_or_concat
  · rw [hnil, List.append_nil] at hslashes
    exact .inr hslashes
  rw [hx, List.concat_eq_append, ← List.append_assoc] at hslashes
  obtain ⟨heq, -⟩ := List.append_inj' hslashes rfl
  obtain rfl | ⟨slashes, y, rfl⟩ := slashes.eq_nil_or_concat
  · rw [List.append_nil] at heq
    exact .inl heq
  -- Another slash would be at the end of `b`.
  · have hy : y = '/' := by
      have hmem : y ∈ rest.takeWhile (· == '/') := by simp [hx]
      simpa using List.mem_takeWhile_imp hmem
    have hne : b ≠ [] := by simp [← heq]
    have hlast : b.getLast hne = '/' := by simp [← heq, hy]
    exact absurd (by simpa using hlast) (List.rdropWhile_eq_self_iff.mp hb hne)

theorem remapsBack_iff : ∀ basePath uri base p, RemapsBack basePath uri base p ↔ IsSeparated basePath base p := by
  intro basePath uri base p
  unfold RemapsBack IsSeparated
  simp only [MoonlinkBackend.new]
  cases hrelative : p.relativeTo base with
  | none =>
    rw [readStateFilepathRemap_eq_iff]
    refine and_iff_left_of_imp fun hnot => ?_
    rw [readStateFilepathRemap_eq_iff.mpr hnot, httpFilepathRemap_text]
  | some relative =>
    obtain ⟨htext, htrim⟩ := AbsolutePath.split_of_relativeTo hrelative
    constructor
    · rintro ⟨hread, -⟩
      obtain ⟨rest, hrest⟩ : basePath <+: p.text := by
        by_contra hnot
        rw [readStateFilepathRemap_eq_iff.mpr hnot] at hread
        exact p.ne_uri uri _ hread.symm
      rw [← hrest, readStateFilepathRemap_append] at hread
      exact eq_of_trimStart (hrest.trans htext) (List.cons.inj (List.append_cancel_left hread)).2 base.trimEnd_components
    · intro hbase
      obtain ⟨rest, hrest, htrimRest, hend⟩ : ∃ rest, p.text = basePath ++ rest ∧ trimStart rest = relative ∧
          trimEnd basePath = componentsText base.components := by
        have hend := base.trimEnd_components
        obtain rfl | rfl := hbase
        · exact ⟨_, htext, htrim, hend⟩
        · refine ⟨relative, by simpa using htext, htrim, ?_⟩
          exact (List.rdropWhile_concat_pos _ _ _ (by simp)).trans hend
      rw [hrest, readStateFilepathRemap_append, htrimRest]
      refine ⟨rfl, ?_⟩
      have htrimSlash : trimStart ('/' :: relative) = relative := htrim
      simp only [httpFilepathRemap, stripPrefix_append, htrimSlash, hend]
      rw [← hrest, htext]

/-- Files of a sibling directory are sent to the server. -/
theorem sibling_remapped : ∃ uri base p, (MoonlinkBackend.new "/data".toList (some uri) base).basePath = "/data".toList ∧
    ¬ RemapsBack "/data".toList uri base p := by
  let uri : DataServerUri := ⟨"http://server".toList, 'h', _, rfl, by decide⟩
  let base : AbsolutePath := ⟨["data".toList], by decide⟩
  let p : AbsolutePath := ⟨["database".toList, "f".toList], by decide⟩
  refine ⟨uri, base, p, by decide, fun h => ?_⟩
  exact absurd h.1 (by decide)

end RoundTrip

end Moonlink.UnionRead
