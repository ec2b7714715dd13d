import PackageGraph.Proofs.Except
import PackageGraph.Xml.Reader
/-!
# Documents in unknown encodings

A document that is refused is no well-formed document, is in an encoding of several octets to a character, or names an
encoding that does not exist. The last depends on its declaration alone.
-/
namespace PackageGraph.Xml

open Except

/-- What a document declares of itself; nothing if its declaration is not in order. -/
def documentDeclaration? (bytes : List UInt8) : Option DocumentDeclaration :=
  match declaration? ((detect bytes).1.sample (detect bytes).2) with
  | none => some ⟨none, false⟩
  | some (content, _) => (settings? (content.length + 1) content).bind DocumentDeclaration.ofSettings?

/-- The name of the encoding that a document declares. -/
def declaredEncoding? (bytes : List UInt8) : Option (List Char) :=
  (documentDeclaration? bytes).bind DocumentDeclaration.encoding

/-- The encodings of Unicode under their exact names. -/
def unicodeNames : List String := ["UTF-8", "UTF-16", "UTF-16BE", "UTF-16LE"]

/-- The name is that of no encoding. -/
structure NamesNoEncoding (name : List Char) : Prop where
  unicode : String.ofList (name.map Char.toUpper) ∉ unicodeNames
  codePage : CodePage.named? (encodingKey name) = none
  wide : isListed wideNames wideAliases (encodingKey name) = false
  foreign : isListed foreignNames foreignAliases (encodingKey name) = false

/-- The faults for which a document is refused. -/
def IsDocumentFault (f : Fault) : Prop := f = .markup ∨ f = .unreadable ∨ f = .unknownEncoding

/-- A code page that is not had is a fault of the document. -/
theorem codePage_failsOnlyWith (name : List Char) : FailsOnlyWith IsDocumentFault (codePage name) := by
  simp only [codePage]
  split
  · exact .ok _
  · split
    · exact .error (.inr (.inl rfl))
    · split
      · exact .error (.inl rfl)
      · exact .error (.inr (.inr rfl))

/-- An encoding is unknown when its name is in none of the three tables. -/
theorem codePage_eq_unknownEncoding_iff {name : List Char} : codePage name = .error .unknownEncoding ↔
    CodePage.named? (encodingKey name) = none ∧ isListed wideNames wideAliases (encodingKey name) = false ∧
      isListed foreignNames foreignAliases (encodingKey name) = false := by
  simp only [codePage]
  cases CodePage.named? (encodingKey name) with
  | some page => simp
  | none =>
    cases isListed wideNames wideAliases (encodingKey name) with
    | true => simp
    | false => cases isListed foreignNames foreignAliases (encodingKey name) <;> simp

/-- A result, or a refusal of the markup. -/
def IsSettled {α : Type} (x : Except Fault α) : Prop := x = .error .markup ∨ ∃ a, x = .ok a

namespace IsSettled

variable {α β : Type}

theorem failsOnlyWith {x : Except Fault α} (h : IsSettled x) : FailsOnlyWith IsDocumentFault x := by
  rcases h with rfl | ⟨a, rfl⟩
  · exact .error (.inl rfl)
  · exact .ok a

theorem ne_unknownEncoding {x : Except Fault α} (h : IsSettled x) : x ≠ .error .unknownEncoding := by
  rcases h with rfl | ⟨a, rfl⟩ <;> nofun

/-- What follows a step does not make an encoding unknown. -/
theorem bind_eq_unknownEncoding_iff {x : Except Fault α} {f : α → Except Fault β} (hf : ∀ a, IsSettled (f a)) :
    x >>= f = .error .unknownEncoding ↔ x = .error .unknownEncoding := by
  cases x with
  | ok a => exact iff_of_false (hf a).ne_unknownEncoding nofun
  | error fault => constructor <;> (intro h; cases h; rfl)

end IsSettled

/-- The encodings of Unicode are told by their exact names, all others by their code pages. -/
theorem declared_cases (detected : Encoding) (name : List Char) :
    (String.ofList (name.map Char.toUpper) ∈ unicodeNames → IsSettled (detected.declared name)) ∧
      (String.ofList (name.map Char.toUpper) ∉ unicodeNames →
        ∃ f : CodePage → Except Fault Encoding, (∀ page, IsSettled (f page)) ∧
          detected.declared name = codePage name >>= f) := by
  simp only [Encoding.declared, unicodeNames]
  generalize String.ofList (name.map Char.toUpper) = exact
  simp only [List.mem_cons, List.not_mem_nil, or_false, not_or]
  constructor
  · intro hexact
    rcases detected with _ | (_ | _) | page <;> rcases hexact with rfl | rfl | rfl | rfl <;>
      first | exact .inl rfl | exact .inr ⟨_, rfl⟩
  · rintro ⟨h8, h16, hbig, hlittle⟩
    rcases detected with _ | (_ | _) | page
    · exact ⟨fun page => .ok (.octets page), fun page => .inr ⟨_, rfl⟩, by simp [h8, h16, hbig, hlittle]; rfl⟩
    · exact ⟨fun _ => .error .markup, fun _ => .inl rfl, by simp [h8, h16, hbig, hlittle]; rfl⟩
    · exact ⟨fun _ => .error .markup, fun _ => .inl rfl, by simp [h8, h16, hbig, hlittle]; rfl⟩
    · exact ⟨fun page => .ok (.octets page), fun page => .inr ⟨_, rfl⟩, by simp [h8, h16, hbig, hlittle]; rfl⟩

theorem declared_failsOnlyWith (detected : Encoding) (name : List Char) :
    FailsOnlyWith IsDocumentFault (detected.declared name) := by
  obtain ⟨hunicode, hother⟩ := declared_cases detected name
  by_cases hname : String.ofList (name.map Char.toUpper) ∈ unicodeNames
  · exact (hunicode hname).failsOnlyWith
  · obtain ⟨f, hf, hdeclared⟩ := hother hname
    rw [hdeclared]
    exact (codePage_failsOnlyWith name).bind fun page => (hf page).failsOnlyWith

/-- Whatever the first octets show, a name is refused as unknown exactly if it is that of no encoding. -/
theorem declared_eq_unknownEncoding_iff {detected : Encoding} {name : List Char} :
    detected.declared name = .error .unknownEncoding ↔ NamesNoEncoding name := by
  have hnames : NamesNoEncoding name ↔
      String.ofList (name.map Char.toUpper) ∉ unicodeNames ∧ codePage name = .error .unknownEncoding := by
    rw [codePage_eq_unknownEncoding_iff]
    exact ⟨fun h => ⟨h.unicode, h.codePage, h.wide, h.foreign⟩, fun h => ⟨h.1, h.2.1, h.2.2.1, h.2.2.2⟩⟩
  rw [hnames]
  obtain ⟨hunicode, hother⟩ := declared_cases detected name
  by_cases hname : String.ofList (name.map Char.toUpper) ∈ unicodeNames
  · exact iff_of_false (hunicode hname).ne_unknownEncoding fun h => h.1 hname
  · obtain ⟨f, hf, hdeclared⟩ := hother hname
    rw [hdeclared, and_iff_right hname, IsSettled.bind_eq_unknownEncoding_iff hf]

/-! ## Documents -/

/-- The text after the declaration of a document whose encoding is known. -/
def textIn (bytes : List UInt8) (declared : DocumentDeclaration) (encoding : Encoding) :
    Except Fault (List Char × Bool) :=
  match encoding.decode? bytes with
  | none => .error .markup
  | some cs =>
    if !cs.all isDocumentChar then .error .markup
    else
      let text := match declaration? cs with
        | none => cs
        | some (_, rest) => rest
      .ok (normalizeLines text, declared.standsAlone)

/-- The tree of a document whose encoding is known. -/
def parseIn (bytes : List UInt8) (declared : DocumentDeclaration) (encoding : Encoding) : Except Fault Element := do
  let (text, standsAlone) ← textIn bytes declared encoding
  match parseChars? standsAlone text with
  | some e => .ok e
  | none => .error .markup

/-- Once the encoding is known, nothing but the markup may be wrong. -/
theorem isSettled_parseIn (bytes : List UInt8) (declared : DocumentDeclaration) (encoding : Encoding) :
    IsSettled (parseIn bytes declared encoding) := by
  have htext : IsSettled (textIn bytes declared encoding) := by
    unfold textIn
    split
    · exact .inl rfl
    · split
      · exact .inl rfl
      · exact .inr ⟨_, rfl⟩
  unfold parseIn
  rcases htext with htext | ⟨⟨text, standsAlone⟩, htext⟩
  · rw [htext]
    exact .inl rfl
  · rw [htext]
    show IsSettled (match parseChars? standsAlone text with
      | some e => .ok e
      | none => .error .markup)
    split
    · exact .inr ⟨_, rfl⟩
    · exact .inl rfl

/-- A document is read in the encoding that it declares, or else in the one that its first octets show. -/
theorem parse_eq (bytes : List UInt8) : parse bytes =
    match documentDeclaration? bytes with
    | none => .error .markup
    | some declared => declared.encoding.elim (.ok (detect bytes).1) (detect bytes).1.declared >>=
        parseIn (detect bytes).2 declared := by
  unfold parse documentText documentDeclaration?
  rcases detect bytes with ⟨detected, rest⟩
  simp only
  cases declaration? (detected.sample rest) with
  | none => rfl
  | some found =>
    obtain ⟨content, after⟩ := found
    simp only
    cases (settings? (content.length + 1) content).bind DocumentDeclaration.ofSettings? with
    | none => rfl
    | some declared =>
      simp only [ok_bind]
      exact bind_assoc ..

/-- Every fault of the parser is one of the document. -/
theorem parse_failsOnlyWith (bytes : List UInt8) : FailsOnlyWith IsDocumentFault (parse bytes) := by
  rw [parse_eq]
  split
  · exact .error (.inl rfl)
  · rename_i declared _
    refine FailsOnlyWith.bind ?_ fun encoding => (isSettled_parseIn _ declared encoding).failsOnlyWith
    cases declared.encoding with
    | none => exact .ok _
    | some name => exact declared_failsOnlyWith _ name

/-- A document is refused for its encoding exactly if it declares one that does not exist. -/
theorem parse_eq_unknownEncoding_iff {bytes : List UInt8} : parse bytes = .error .unknownEncoding ↔
    ∃ name, declaredEncoding? bytes = some name ∧ NamesNoEncoding name := by
  rw [parse_eq, declaredEncoding?]
  cases documentDeclaration? bytes with
  | none => simp
  | some declared =>
    simp only [Option.bind_some]
    rw [IsSettled.bind_eq_unknownEncoding_iff (isSettled_parseIn _ declared)]
    cases declared.encoding with
    | none => simp
    | some name =>
      simp only [Option.elim_some, Option.some.injEq, exists_eq_left']
      exact declared_eq_unknownEncoding_iff

end PackageGraph.Xml
