import SchemaClasses.Keyed
import SchemaClasses.Pointer
import SchemaClasses.Text.Segments

/-! The documents of a run, and where references in them lead to. -/

namespace SchemaClasses

/-! Relative references resolved against the URI of a document. -/

namespace Uri

/-- The characters behind the first `://`, and those up to its end. -/
def splitAuthority : List Char → Option (List Char × List Char)
  | ':' :: '/' :: '/' :: rest => some ([':', '/', '/'], rest)
  | c :: rest => (splitAuthority rest).map fun (before, after) => (c :: before, after)
  | [] => none

/-- Scheme and authority, and the path with its leading slash; a text without `://` is all path. -/
def split (uri : String) : String × String :=
  match splitAuthority uri.toList with
  | some (scheme, rest) =>
    let authority := rest.takeWhile (· != '/')
    (String.ofList (scheme ++ authority), String.ofList (rest.drop authority.length))
  | none => ("", uri)

/-- One segment of a relative path applied to the segments so far. -/
def applySegment (segments : List String) (segment : String) : List String :=
  if segment == "" || segment == "." then segments
  -- Going up from the root stays there.
  else if segment == ".." then segments.dropLast
  else segments ++ [segment]

/-- The segments of the directory that a document's path lies in. -/
def directory (path : String) : List String :=
  (cutText '/' path).dropLast.filter (· != "")

/-- A possibly relative text resolved against the URI of a document; a text with a colon is
taken as it is. -/
def resolve (base relative : String) : String :=
  if ':' ∈ relative.toList then relative
  else
    let (authority, path) := split base
    let rooted := relative.startsWith "/"
    let start := if rooted then [] else directory path
    let segments := (cutText '/' relative).foldl applySegment start
    let absolute := path.startsWith "/" || authority != "" || rooted
    authority ++ (if absolute then "/" else "") ++ joinText "/" segments

end Uri

/-! The documents of a run, and the places that references in them lead to. -/

/-- A value inside a document. -/
structure Place where
  document : String
  pointer : String := ""
deriving DecidableEq, Repr

namespace Place

/-- The text that identifies the place. -/
def location (place : Place) : String := place.document ++ "#" ++ place.pointer

/-- The place of a member. -/
def member (place : Place) (name : String) : Place :=
  { place with pointer := place.pointer ++ "/" ++ Pointer.escape name }

/-- The place of an item. -/
def item (place : Place) (index : Nat) : Place :=
  { place with pointer := place.pointer ++ "/" ++ toString index }

end Place

/-- Documents by their own URI, and the other URIs under which they were handed in. -/
structure Documents where
  contents : Keyed Json := {}
  aliases : Keyed String := {}
deriving Inhabited

namespace Documents

/-- The URI that a document gives itself, or the one it was found under. -/
def ownUri (uri : String) (content : Json) : String :=
  match (content.member? "$id").bind Json.text? with
  | some id => String.ofList ((id.toList.reverse.dropWhile (· == '#')).reverse)
  | none => uri

/-- A document added under its own URI, which is returned. -/
def add (documents : Documents) (uri : String) (content : Json) : String × Documents :=
  let own := ownUri uri content
  (own, { contents := documents.contents.insert own content
          aliases := if own == uri then documents.aliases else documents.aliases.insert uri own })

/-- The own URI of the document that a URI names. -/
def canonical? (documents : Documents) (uri : String) : Option String :=
  if documents.contents.contains uri then some uri else documents.aliases.find? uri

/-- The value at a place. -/
def valueAt? (documents : Documents) (place : Place) : Option Json :=
  (documents.contents.find? place.document).bind fun content =>
    Pointer.select content place.pointer

/-- The place that a reference leads to; its document must be known, and its fragment must be
empty or a pointer. -/
def resolve? (documents : Documents) (base reference : String) : Option Place := do
  let (uri, fragment) := (cutOnce '#' reference).getD (reference, "")
  let document ←
    if uri == "" then some base
    else documents.canonical? (Uri.resolve base uri) <|> documents.canonical? uri
  if fragment == "" ∨ fragment.toList.head? = some '/' then some ⟨document, fragment⟩ else none

mutual

/-- All texts under a `$ref` inside a value. -/
def references : Json → List String
  | .array items => itemReferences items
  | .object members => memberReferences members
  | _ => []

/-- All texts under a `$ref` inside the items of an array. -/
def itemReferences : List Json → List String
  | [] => []
  | item :: rest => references item ++ itemReferences rest

/-- All texts under a `$ref` among the members of an object or inside them. -/
def memberReferences : List (String × Json) → List String
  | [] => []
  | (key, value) :: rest =>
    (match key, value with
      | "$ref", .string text => [text]
      | _, _ => []) ++ references value ++ memberReferences rest

end

/-- The places that the references of all documents lead to. -/
def targets (documents : Documents) : List Place :=
  documents.contents.entries.flatMap fun (uri, content) =>
    (references content).filterMap (documents.resolve? uri)

end Documents

end SchemaClasses
