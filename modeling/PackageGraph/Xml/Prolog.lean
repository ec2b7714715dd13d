import PackageGraph.Xml.Token
/-!
# Prologs of XML documents

What stands before the root element: comments, processing instructions and at most one document type.
-/
namespace PackageGraph.Xml

/-- The declarations between the brackets of a document type, up to the closing one. -/
def subset? : Nat → DocumentType → List Char → Option (DocumentType × List Char)
  | 0, _, _ => none
  | fuel + 1, type, cs =>
    match skipSpace cs with
    | ']' :: rest => some (type, rest)
    | '%' :: rest => do
      let (_, rest) ← plainName? rest
      match rest with
      | ';' :: rest => subset? fuel type.refersOutside rest
      | _ => none
    | '<' :: '!' :: '-' :: '-' :: rest => do subset? fuel type (← afterComment? rest)
    | '<' :: '?' :: rest => do subset? fuel type (← afterInstruction? rest)
    | '<' :: '!' :: rest => do
      let (declared, rest) ← declared? rest
      subset? fuel (← type.add? declared) rest
    | _ => none

/-- A document type after its opening word. -/
def documentType? (standsAlone : Bool) (cs : List Char) : Option (DocumentType × List Char) := do
  let (parts, last, rest) ← partsUpTo? [.bracket, .close] (cs.length + 1) (← afterSpace? cs)
  let type := DocumentType.none standsAlone
  let type := if ← isExtended? parts then type.extendedOutside else type
  if last = .close then return (type, rest)
  let (type, rest) ← subset? (rest.length + 1) type rest
  match skipSpace rest with
  | '>' :: rest => return (type, rest)
  | _ => none

/-- The document type of a prolog, and the text from the root element on. -/
def prolog? (standsAlone : Bool) : Nat → Option DocumentType → List Char → Option (DocumentType × List Char)
  | 0, _, _ => none
  | fuel + 1, type, cs =>
    match skipSpace cs with
    | '<' :: '!' :: '-' :: '-' :: rest => do prolog? standsAlone fuel type (← afterComment? rest)
    | '<' :: '?' :: rest => do prolog? standsAlone fuel type (← afterInstruction? rest)
    | '<' :: '!' :: rest =>
      if type.isSome then none
      else do
        let (type, rest) ← documentType? standsAlone (← afterWord? "DOCTYPE" rest)
        prolog? standsAlone fuel (some type) rest
    | rest => some (type.getD (.none standsAlone), rest)

end PackageGraph.Xml
