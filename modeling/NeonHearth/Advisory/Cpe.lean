import NeonHearth.Data.Chars
import NeonHearth.Data.Except

/-!
# CPE names

The criteria of an NVD match are a CPE 2.3 name: thirteen components between colons, in which a
backslash stands before a character that is meant literally (`nvd.rs` of the advisories).  The parser
accepts what is written like that and nothing else (`parseCpe23_eq_ok_iff`).
-/

namespace NeonHearth.Advisory

open Chars NeonHearth.Except List

def maxCpeField : ℕ := 128

inductive NvdParseError where
  | malformed
  | oversized

structure CpeField where
  text : String
  escaped : Bool

def validCpeEscape (character : Char) : Bool :=
  character = '\\' || (!character.isAlphanum && !isWhitespace character && !isControl character)

/-- The variables of the loop; `last` is the field that is being read, the last one of the vector. -/
structure CpeParser where
  fields : List CpeField
  last : CpeField
  escape : Bool

/-- What a pass of the loop does with a character. -/
def CpeParser.take (p : CpeParser) (character : Char) : Except NvdParseError CpeParser :=
  if p.escape then
    if validCpeEscape character then
      .ok { p with last := ⟨p.last.text.push character, true⟩, escape := false }
    else .error .malformed
  else if character = '\\' then .ok { p with escape := true }
  else if character = ':' then .ok { p with fields := p.fields ++ [p.last], last := ⟨"", false⟩ }
  else if isControl character then .error .malformed
  else .ok { p with last := { p.last with text := p.last.text.push character } }

def CpeParser.read (p : CpeParser) (character : Char) : Except NvdParseError CpeParser := do
  let p ← p.take character
  reject (maxCpeField < p.last.text.utf8ByteSize) .oversized
  pure p

def parseCpe23 (raw : String) : Except NvdParseError (List CpeField) := do
  let p ← raw.toList.foldlM CpeParser.read ⟨[], ⟨"", false⟩, false⟩
  let fields := p.fields ++ [p.last]
  reject (p.escape || fields.length ≠ 13 || fields.any (·.text = "")) .malformed
  pure fields

/-! ### Names as they are written -/

/-- A component as it is written: its characters, each with whether a backslash stands before it. -/
abbrev Component := List (Char × Bool)

namespace Component

/-- What the component stands for. -/
def field (c : Component) : CpeField := ⟨.ofList (c.map Prod.fst), c.any Prod.snd⟩

def spelling (c : Component) : List Char := c.flatMap fun (x, escaped) => if escaped then ['\\', x] else [x]

/-- A character that is no control character may be written like that: colons and backslashes are
escaped, and nothing but what can be. -/
def Spelled (x : Char × Bool) : Prop :=
  isControl x.1 = false ∧ if x.2 then validCpeEscape x.1 = true else x.1 ≠ ':' ∧ x.1 ≠ '\\'

structure Fits (c : Component) : Prop where
  bounded : c.field.text.utf8ByteSize ≤ maxCpeField
  spelled : ∀ x ∈ c, Spelled x

end Component

open Component

/-- The components between colons. -/
def format (cs : List Component) : String := .ofList ([':'].intercalate (cs.map spelling))

variable {c : Component} {x : Char × Bool} {cs : List Component} {f : List CpeField}

theorem intercalate_concat (l x) : [':'].intercalate (l ++ [x]) = l.flatMap (· ++ [':']) ++ x := by
  induction l with
  | nil => simp
  | cons y l ih =>
    obtain ⟨z, l', h⟩ : ∃ z l', l ++ [x] = z :: l' := by cases l <;> simp
    rw [cons_append, h, intercalate_cons_cons, ← h, ih, flatMap_cons, append_assoc, append_assoc,
      append_assoc]

theorem toList_format (cs c) :
    (format (cs ++ [c])).toList = cs.flatMap (spelling · ++ [':']) ++ c.spelling := by
  simp [format, intercalate_concat, flatMap_map]

theorem field_concat (c) (x : Char × Bool) :
    field (c ++ [x]) = ⟨c.field.text.push x.1, c.field.escaped || x.2⟩ := by
  simp [field, String.ofList_append]

theorem size_append (c d) : (field (c ++ d)).text.utf8ByteSize =
    c.field.text.utf8ByteSize + d.field.text.utf8ByteSize := by
  simp [field, String.ofList_append]

theorem Component.Fits.of_append {d} (h : Fits (c ++ d)) : Fits c where
  bounded := Nat.le_of_add_right_le (size_append c d ▸ h.bounded)
  spelled x hx := h.spelled x (mem_append_left d hx)

theorem read_eq_ok {p q : CpeParser} {character : Char} : p.read character = .ok q ↔
    p.take character = .ok q ∧ q.last.text.utf8ByteSize ≤ maxCpeField := by
  simp only [CpeParser.read, bind_eq_ok, reject_eq_ok, pure_eq_ok, Nat.not_lt, exists_const,
    exists_eq_right_right]

/-! ### What is written can be read -/

theorem read_character (h : Fits (c ++ [x])) :
    (spelling [x]).foldlM CpeParser.read ⟨f, c.field, false⟩ =
    .ok ⟨f, field (c ++ [x]), false⟩ := by
  obtain ⟨character, escaped⟩ := x
  obtain ⟨hprintable, hspelled⟩ := h.spelled _ mem_concat_self
  have hbounded := h.bounded
  rw [field_concat] at hbounded ⊢
  cases escaped with
  | true =>
    rw [Bool.or_true]
    refine bind_eq_ok.2 ⟨⟨f, c.field, true⟩, read_eq_ok.2 ⟨rfl, h.of_append.bounded⟩, ?_⟩
    exact bind_eq_ok.2 ⟨_, read_eq_ok.2 ⟨if_pos hspelled, hbounded⟩, rfl⟩
  | false =>
    obtain ⟨hcolon, hbackslash⟩ := hspelled
    refine bind_eq_ok.2 ⟨_, read_eq_ok.2 ⟨?_, hbounded⟩, rfl⟩
    simp [CpeParser.take, hcolon, hbackslash, hprintable]

theorem spelling_append (c d) : spelling (c ++ d) = c.spelling ++ d.spelling :=
  flatMap_append

theorem read_component {d} (h : Fits (c ++ d)) :
    (spelling d).foldlM CpeParser.read ⟨f, c.field, false⟩ =
    .ok ⟨f, field (c ++ d), false⟩ := by
  induction d generalizing c with
  | nil => rw [append_nil]; rfl
  | cons x d ih =>
    rw [append_cons] at h ⊢
    rw [← singleton_append, spelling_append, foldlM_append]
    exact bind_eq_ok.2 ⟨_, read_character h.of_append, ih h⟩

/-- The components but the last one, each with its colon. -/
theorem read_components (h : ∀ c ∈ cs, Fits c) :
    (cs.flatMap (spelling · ++ [':'])).foldlM CpeParser.read ⟨f, field [], false⟩ =
      .ok ⟨f ++ cs.map field, field [], false⟩ := by
  induction cs generalizing f with
  | nil => rw [map_nil, append_nil]; rfl
  | cons c cs ih =>
    obtain ⟨hc, hcs⟩ := forall_mem_cons.1 h
    have hcolon : CpeParser.read ⟨f, c.field, false⟩ ':' = .ok ⟨f ++ [c.field], field [], false⟩ :=
      read_eq_ok.2 ⟨rfl, Nat.zero_le _⟩
    rw [flatMap_cons, foldlM_append, foldlM_append, map_cons, append_cons]
    refine bind_eq_ok.2 ⟨_, bind_eq_ok.2 ⟨_, read_component (c := []) hc, ?_⟩, ih hcs⟩
    exact bind_eq_ok.2 ⟨_, hcolon, rfl⟩

/-! ### What is read is written -/

/-- The parser has read the components up to the one it is at, and perhaps a backslash after them. -/
def Written (done : List Char) (p : CpeParser) : Prop :=
  ∃ cs c, p.fields = cs.map field ∧ p.last = c.field ∧ (∀ d ∈ cs ++ [c], Fits d) ∧
    done = (format (cs ++ [c])).toList ++ if p.escape then ['\\'] else []

theorem fits_nil : Fits [] := ⟨Nat.zero_le _, nofun⟩

theorem isControl_of_validCpeEscape {character} (h : validCpeEscape character = true) :
    isControl character = false := by
  obtain rfl | ⟨-, h⟩ : character = '\\' ∨ _ ∧ isControl character = false := by
    simpa [validCpeEscape] using h
  · rfl
  · exact h

theorem Written.read {done p q} {character : Char} (h : Written done p)
    (hread : p.read character = .ok q) : Written (done ++ [character]) q := by
  obtain ⟨cs, c, hfields, hlast, hfits, rfl⟩ := h
  obtain ⟨hcs, hc⟩ := forall_mem_concat.1 hfits
  obtain ⟨htake, hsize⟩ := read_eq_ok.1 hread
  simp only [toList_format]
  unfold CpeParser.take at htake
  split_ifs at htake with hescape hvalid hbackslash hcolon hcontrol <;> cases htake
  · -- the character after a backslash
    have hnext := field_concat c (character, true)
    rw [Bool.or_true, ← hlast] at hnext
    refine ⟨cs, c ++ [(character, true)], hfields, hnext.symm, forall_mem_concat.2 ⟨hcs, hnext ▸ hsize,
      forall_mem_concat.2 ⟨hc.spelled, isControl_of_validCpeEscape hvalid, hvalid⟩⟩, ?_⟩
    simp [toList_format, hescape, spelling]
  · exact ⟨cs, c, hfields, hlast, hfits, by simp [toList_format, hescape, hbackslash]⟩
  · refine ⟨cs ++ [c], [], by simp [hfields, hlast], rfl, forall_mem_concat.2 ⟨hfits, fits_nil⟩, ?_⟩
    rw [toList_format (cs ++ [c])]
    simp [hescape, hcolon, spelling]
  · have hnext := field_concat c (character, false)
    rw [Bool.or_false, ← hlast] at hnext
    refine ⟨cs, c ++ [(character, false)], hfields, hnext.symm, forall_mem_concat.2 ⟨hcs, hnext ▸ hsize,
      forall_mem_concat.2 ⟨hc.spelled, Bool.not_eq_true _ ▸ hcontrol, hcolon, hbackslash⟩⟩, ?_⟩
    simp [toList_format, hescape, spelling]

theorem field_text_eq_empty : c.field.text = "" ↔ c = [] := by
  simp [field]

/-- **The parser inverts the formatting**: it accepts the thirteen components that are written with
their colons and backslashes escaped, for what they stand for, and nothing else. -/
theorem parseCpe23_eq_ok_iff {raw : String} {fields : List CpeField} :
    parseCpe23 raw = .ok fields ↔ ∃ cs : List Component, cs.length = 13 ∧
      (∀ c ∈ cs, c ≠ [] ∧ Fits c) ∧ raw = format cs ∧ fields = cs.map field := by
  simp only [parseCpe23, bind_eq_ok, reject_eq_ok, pure_eq_ok, exists_const, Bool.or_eq_true,
    decide_eq_true_eq, not_or, not_not, any_eq_true, not_exists, not_and, Bool.not_eq_true]
  constructor
  · rintro ⟨p, hread, ⟨⟨hescape, hlength⟩, hempty⟩, rfl⟩
    obtain ⟨cs, c, hfields, hlast, hfits, hraw⟩ := foldlM_invariant (I := Written) hread
      ⟨[], [], rfl, rfl, by simpa using fits_nil, rfl⟩ fun _ _ _ _ _ _ h hstep => h.read hstep
    have hall : p.fields ++ [p.last] = (cs ++ [c]).map field := by simp [hfields, hlast]
    rw [hall] at hlength hempty ⊢
    refine ⟨cs ++ [c], by simpa using hlength, fun d hd => ⟨?_, hfits d hd⟩, ?_, rfl⟩
    · exact fun hnil => hempty _ (mem_map_of_mem hd) (field_text_eq_empty.2 hnil)
    · rw [← String.toList_inj, hraw, hescape]
      exact append_nil _
  · rintro ⟨cs, hlength, hfits, rfl, rfl⟩
    obtain rfl | ⟨cs, c, rfl⟩ := eq_nil_or_concat' cs
    · cases hlength
    obtain ⟨hcs, hc⟩ := forall_mem_concat.1 fun d hd => (hfits d hd).2
    refine ⟨⟨cs.map field, c.field, false⟩, ?_, ⟨⟨rfl, by simpa using hlength⟩, ?_⟩, by simp⟩
    · rw [toList_format, foldlM_append]
      exact bind_eq_ok.2 ⟨_, read_components (f := []) hcs, read_component (c := []) hc⟩
    · rw [show cs.map field ++ [c.field] = (cs ++ [c]).map field by simp, forall_mem_map]
      exact fun d hd hnil => (hfits d hd).1 (field_text_eq_empty.1 hnil)

end NeonHearth.Advisory
