import SchemaClasses.Proofs.Reading.Spelling

/-! Relative references: resolved against a document they lead to a path below its authority in which
nothing is left to resolve, and a detour on the way makes no difference. -/

namespace SchemaClasses

/-- Pieces hold no separator. -/
theorem notMem_of_mem_cut {separator : Char} {chars piece : List Char}
    (member : piece ∈ cut separator chars) : separator ∉ piece := by
  induction chars generalizing piece with
  | nil => simp_all [cut]
  | cons c rest ih =>
    rw [cut] at member
    -- A separator begins a piece without characters, and every other character joins the first
    -- piece.
    split at member
    · rcases List.mem_cons.mp member with rfl | member
      · exact List.not_mem_nil
      · exact ih member
    · rename_i other
      cases pieces : cut separator rest with
      | nil => exact absurd pieces (cut_ne_nil rest)
      | cons first more =>
        rw [pieces] at ih member
        -- The first piece goes on with this character, and the others are as they were.
        rcases List.mem_cons.mp member with rfl | member
        · have none := ih List.mem_cons_self
          simp [Ne.symm other, none]
        · exact ih (List.mem_cons_of_mem _ member)

/-- Pieces of a text hold no separator. -/
theorem notMem_of_mem_cutText {separator : Char} {text piece : String}
    (member : piece ∈ cutText separator text) : separator ∉ piece.toList := by
  obtain ⟨chars, here, rfl⟩ := List.mem_map.mp member
  simpa using notMem_of_mem_cut here

/-- A reference leads to the document that it names, and there to the place that it points to. -/
theorem Documents.resolve?_eq {documents : Documents} {base text : String} :
    documents.resolve? base text = (documents.named? base (documentPart text)).bind fun document =>
      if (fragmentPart text == "") = true ∨ (fragmentPart text).toList.head? = some '/' then
        some ⟨document, fragmentPart text⟩
      else none := by
  unfold resolve? named? documentPart
  dsimp only
  split <;> rfl

/-- A text that resolves to the URI of a document names that document. -/
theorem Documents.named?_of_registered {documents : Documents} {base name document : String}
    (nonempty : name ≠ "") (registered : documents.canonical? (Uri.resolve base name) = some document) :
    documents.named? base name = some document := by
  rw [named?, if_neg (by simpa using nonempty), registered]
  rfl

namespace Uri

/-- Whether a segment is the name of something inside a directory. -/
structure IsName (segment : String) : Prop where
  nonempty : segment ≠ ""
  notHere : segment ≠ "."
  notUp : segment ≠ ".."
  whole : '/' ∉ segment.toList

/-- Whether a segment of a path may start behind a text. -/
def EndsSegment (before : String) : Prop := before = "" ∨ ∃ front, before = front ++ "/"

/-- Texts that may stand in front of a segment and lead back to where they started. -/
inductive Detour : String → Prop where
  | here : Detour "./"
  | slash : Detour "/"
  | back {name : String} (isName : IsName name) (plain : ':' ∉ name.toList) : Detour (name ++ "/../")

/-- The segments that a relative path leads to from those of a directory. -/
def walk (start : List String) (relative : String) : List String :=
  (cutText '/' relative).foldl applySegment start

/-- The segments that a relative path is applied to: none where it starts at the root. -/
def origin (base relative : String) : List String :=
  if relative.startsWith "/" then [] else directory (split base).2

variable {segments : List String} {segment before after detour relative : String}

@[simp] theorem applySegment_empty : applySegment segments "" = segments := by simp [applySegment]

@[simp] theorem applySegment_here : applySegment segments "." = segments := by simp [applySegment]

@[simp] theorem applySegment_up : applySegment segments ".." = segments.dropLast := by
  simp [applySegment]

theorem applySegment_name (isName : IsName segment) :
    applySegment segments segment = segments ++ [segment] := by
  simp [applySegment, isName.nonempty, isName.notHere, isName.notUp]

/-- A piece of a path adds no segment but a name. -/
theorem isName_applySegment (names : ∀ name ∈ segments, IsName name)
    (whole : '/' ∉ segment.toList) : ∀ name ∈ applySegment segments segment, IsName name := by
  unfold applySegment
  split
  · -- A piece that says nothing changes nothing, one that says `..` takes a name away, and any
    -- other is a name.
    exact names
  · rename_i spoken
    split
    · intro name member
      exact names name (List.mem_of_mem_dropLast member)
    · rename_i notUp
      intro name member
      rcases List.mem_append.mp member with member | member
      · exact names name member
      · rw [List.mem_singleton.mp member]
        simp only [Bool.or_eq_true, beq_iff_eq, not_or] at spoken notUp
        exact ⟨spoken.1, spoken.2, notUp, whole⟩

/-- A path leads from names to names. -/
theorem isName_walk (names : ∀ name ∈ segments, IsName name) :
    ∀ name ∈ walk segments relative, IsName name := by
  unfold walk
  -- No piece of the text has a slash in it, as it was cut there.
  have whole : ∀ piece ∈ cutText '/' relative, '/' ∉ piece.toList := fun _ => notMem_of_mem_cutText
  generalize cutText '/' relative = pieces at whole
  -- One piece is applied after the other, so the induction follows the pieces.
  induction pieces generalizing segments with
  | nil => exact names
  | cons piece rest ih =>
    apply ih
    · exact isName_applySegment names (whole piece List.mem_cons_self)
    · intro other member
      exact whole other (List.mem_cons_of_mem _ member)

/-- The first part of a path is followed before the rest. -/
theorem walk_append (ends : EndsSegment before) :
    walk segments (before ++ after) = walk (walk segments before) after := by
  rcases ends with rfl | ⟨front, rfl⟩
  · simp [walk, cutText, cut]
  · have behind : cutText '/' (front ++ "/") = cutText '/' front ++ [""] := by
      simpa [cutText, cut] using cutText_slash front ""
    unfold walk
    rw [cutText_slash, behind, List.foldl_append, List.foldl_append]
    simp

theorem walk_empty : walk segments "" = segments := by simp [walk, cutText, cut]

/-- A name in front of a path is entered first. -/
theorem walk_name (isName : IsName segment) : walk segments (segment ++ "/") = segments ++ [segment] := by
  have pieces : cutText '/' (segment ++ "/") = [segment, ""] := by
    have slash := cutText_slash segment ""
    rw [cutText_of_notMem isName.whole, String.append_empty] at slash
    simpa [cutText, cut] using slash
  simp [walk, pieces, applySegment_name isName]

/-- Going up leaves the last segment, if there is one. -/
theorem walk_up : walk segments "../" = segments.dropLast := by
  simp [walk, cutText, cut]

theorem Detour.endsSegment (leads : Detour detour) : EndsSegment detour := by
  cases leads with
  | here => exact .inr ⟨".", rfl⟩
  | slash => exact .inr ⟨"", rfl⟩
  | @back name => exact .inr ⟨name ++ "/..", by simp [String.append_assoc]⟩

/-- A detour leads back to where it started. -/
theorem Detour.walk_eq (leads : Detour detour) : walk segments detour = segments := by
  cases leads with
  | here => simp [walk, cutText, cut]
  | slash => simp [walk, cutText, cut]
  | @back name isName =>
    have parts : name ++ "/../" = (name ++ "/") ++ "../" := by simp [String.append_assoc]
    -- What was entered last is what is left again.
    rw [parts, walk_append (.inr ⟨name, rfl⟩), walk_name isName, walk_up, List.dropLast_concat]

theorem Detour.colon_notMem (leads : Detour detour) : ':' ∉ detour.toList := by
  cases leads with
  | here => decide
  | slash => decide
  | back isName plain => simp [plain]

/-- A detour adds something to a text. -/
theorem Detour.ne_empty (leads : Detour detour) (before after : String) :
    before ++ detour ++ after ≠ "" := by
  cases leads with
  | here => simp
  | slash => simp
  | back => simp

/-- A detour in front of a segment changes nothing about where a path leads. -/
theorem walk_detour (ends : EndsSegment before) (leads : Detour detour) :
    walk segments (before ++ detour ++ after) = walk segments (before ++ after) := by
  rw [String.append_assoc, walk_append ends, walk_append leads.endsSegment, leads.walk_eq,
    ← walk_append ends]

/-! A base that has an authority: all that is resolved against it lies below its root. -/

/-- A scheme ends where the authority begins. -/
theorem splitAuthority_scheme {scheme rest : List Char} (plain : ':' ∉ scheme) :
    splitAuthority (scheme ++ ':' :: '/' :: '/' :: rest) = some (scheme ++ [':', '/', '/'], rest) := by
  induction scheme with
  | nil => rfl
  | cons c scheme ih =>
    rw [List.mem_cons, not_or] at plain
    -- A character that is no colon belongs to the scheme.
    have further : splitAuthority (c :: (scheme ++ ':' :: '/' :: '/' :: rest)) =
        (splitAuthority (scheme ++ ':' :: '/' :: '/' :: rest)).map
          fun parts => (c :: parts.1, parts.2) := by
      conv_lhs => unfold splitAuthority
      split
      · rename_i same
        exact absurd (List.cons.inj same).1.symm plain.1
      · rename_i same
        obtain ⟨rfl, rfl⟩ := List.cons.inj same
        rfl
      · rename_i same
        cases same
    rw [List.cons_append, further, ih plain.2]
    rfl

/-- A URI with a scheme, an authority and a path in which nothing is left to resolve. -/
structure BaseUri where
  scheme : String
  authority : String
  /-- The path, without its leading slash. -/
  path : String
  schemePlain : ':' ∉ scheme.toList
  authorityPlain : '/' ∉ authority.toList
  normal : ∀ piece ∈ cutText '/' path, piece ≠ "." ∧ piece ≠ ".."

namespace BaseUri

/-- The root of the authority, in which all its paths start. -/
def root (base : BaseUri) : String := base.scheme ++ "://" ++ base.authority ++ "/"

/-- The URI as a text. -/
def text (base : BaseUri) : String := base.root ++ base.path

variable (base : BaseUri)

/-- A URI is split behind its authority. -/
theorem split_text : split base.text = (base.scheme ++ "://" ++ base.authority, "/" ++ base.path) := by
  have chars : base.text.toList = base.scheme.toList ++
      ':' :: '/' :: '/' :: (base.authority.toList ++ '/' :: base.path.toList) := by
    simp [text, root]
  -- Up to the first slash everything is the authority.
  have taken : (base.authority.toList ++ '/' :: base.path.toList).takeWhile (· != '/') =
      base.authority.toList := by
    rw [List.takeWhile_append_of_pos]
    · simp
    · intro c member
      simpa using fun same : c = '/' => base.authorityPlain (same ▸ member)
  simp only [split, chars, splitAuthority_scheme base.schemePlain, taken, List.drop_left]
  refine Prod.ext (String.toList_inj.mp ?_) (String.toList_inj.mp ?_)
  · simp
  · simp

/-- All that is resolved against a URI with an authority lies below the root of that authority. -/
theorem resolve_eq (plain : ':' ∉ relative.toList) :
    resolve base.text relative =
      base.root ++ joinText "/" (walk (origin base.text relative) relative) := by
  have below : (("/" ++ base.path).startsWith "/") = true := by simp
  simp only [resolve, if_neg plain, walk, origin, split_text, below, Bool.true_or, if_true, root]

/-- A relative path starts from names. -/
theorem isName_origin : ∀ name ∈ origin base.text relative, IsName name := by
  intro name member
  -- Behind a slash the path starts from the root, and otherwise from the directory of the base.
  rw [origin, split_text] at member
  split at member
  · exact absurd member List.not_mem_nil
  · obtain ⟨member, nonempty⟩ := List.mem_filter.mp member
    have nonempty : name ≠ "" := by simpa using nonempty
    -- In front of the slash of the root there is an empty piece, which is no name.
    have pieces : cutText '/' ("/" ++ base.path) = "" :: cutText '/' base.path := by
      simp [cutText, cut]
    have member := List.mem_of_mem_dropLast member
    rw [pieces, List.mem_cons] at member
    have member := member.resolve_left nonempty
    obtain ⟨notHere, notUp⟩ := base.normal name member
    exact ⟨nonempty, notHere, notUp, notMem_of_mem_cutText member⟩

end BaseUri

/-- Names joined by slashes are only empty where there is none. -/
theorem eq_nil_of_joinText (names : ∀ name ∈ segments, IsName name)
    (empty : joinText "/" segments = "") : segments = [] := by
  cases segments with
  | nil => rfl
  | cons first rest =>
    have nonempty := (names first List.mem_cons_self).nonempty
    cases rest with
    | nil =>
      simp only [joinText, String.intercalate_singleton] at empty
      exact absurd empty nonempty
    | cons second rest =>
      -- Two names have a slash between them.
      have chars := congrArg String.toList empty
      simp [joinText, String.intercalate_cons_cons] at chars

/-- Names joined by slashes are the pieces between these slashes. -/
theorem cutText_joinText {first : String} (names : ∀ name ∈ first :: segments, IsName name) :
    cutText '/' (joinText "/" (first :: segments)) = first :: segments := by
  induction segments generalizing first with
  | nil => simpa [joinText] using cutText_of_notMem (names first List.mem_cons_self).whole
  | cons second rest ih =>
    -- The first name is followed by a slash and by what the others are joined to.
    have joined : joinText "/" (first :: second :: rest) =
        first ++ "/" ++ joinText "/" (second :: rest) := by
      simp [joinText, String.intercalate_cons_cons]
    rw [joined, cutText_slash, cutText_of_notMem (names first List.mem_cons_self).whole,
      ih fun name member => names name (List.mem_cons_of_mem _ member)]
    rfl

/-- Paths of names are the same only if the names are. -/
theorem joinText_inj {segments' : List String} (names : ∀ name ∈ segments, IsName name)
    (names' : ∀ name ∈ segments', IsName name)
    (same : joinText "/" segments = joinText "/" segments') : segments = segments' := by
  -- The empty path is that of no name, and any other path is cut into its names.
  cases segments with
  | nil => exact (eq_nil_of_joinText names' same.symm).symm
  | cons first rest =>
    cases segments' with
    | nil => exact eq_nil_of_joinText names same
    | cons first' rest' =>
      rw [← cutText_joinText names, ← cutText_joinText names', same]

/-- What leads to a path of names leaves these names. -/
theorem BaseUri.walk_eq (base : BaseUri) (plain : ':' ∉ relative.toList)
    (names : ∀ name ∈ segments, IsName name)
    (reached : resolve base.text relative = base.root ++ joinText "/" segments) :
    walk (origin base.text relative) relative = segments := by
  rw [base.resolve_eq plain] at reached
  apply joinText_inj (isName_walk base.isName_origin) names
  have chars := congrArg String.toList reached
  simp only [String.toList_append, List.append_cancel_left_eq] at chars
  exact String.toList_inj.mp chars

/-- Behind a text that leads to a path of names, the rest of a relative path starts from these. -/
theorem BaseUri.resolve_behind (base : BaseUri) (ends : EndsSegment before)
    (plain : ':' ∉ (before ++ after).toList) (names : ∀ name ∈ segments, IsName name)
    (reached : resolve base.text before = base.root ++ joinText "/" segments)
    (start : (before ++ after).startsWith "/" = before.startsWith "/") :
    resolve base.text (before ++ after) = base.root ++ joinText "/" (walk segments after) := by
  have before_plain : ':' ∉ before.toList := by simp_all
  -- The first part decides where the whole path starts.
  have origin_eq : origin base.text (before ++ after) = origin base.text before := by
    rw [origin, origin, start]
  rw [base.resolve_eq plain, walk_append ends, origin_eq, base.walk_eq before_plain names reached]

/-- Behind a slash, nothing changes how a text starts. -/
theorem startsWith_behind {front : String} :
    (front ++ "/" ++ after).startsWith "/" = (front ++ "/").startsWith "/" := by
  rw [Bool.eq_iff_iff]
  cases chars : front.toList with
  | nil => simp [chars]
  | cons c rest => simp [chars]

/-- A path starts as its first part does, unless a slash follows on nothing. -/
theorem startsWith_append (ends : EndsSegment before) (plain : after.startsWith "/" = false) :
    (before ++ after).startsWith "/" = before.startsWith "/" := by
  rcases ends with rfl | ⟨front, rfl⟩
  · rw [String.empty_append, plain]
    rfl
  · exact startsWith_behind

/-- A path goes on from the root where the first part of it leads there. -/
theorem BaseUri.resolve_from_root (base : BaseUri) (ends : EndsSegment before)
    (plain : ':' ∉ (before ++ after).toList) (toRoot : resolve base.text before = base.root) :
    resolve base.text (before ++ after) = base.root ++ joinText "/" (walk [] after) := by
  have reached : resolve base.text before = base.root ++ joinText "/" [] := by
    simpa [joinText] using toRoot
  rcases ends with rfl | ⟨front, rfl⟩
  · -- The directory itself is the root, so it does not matter where the path says that it starts.
    have none := base.walk_eq (by simp) (by simp) reached
    have start : origin base.text ("" ++ after) = [] := by
      rw [walk_empty, origin] at none
      rw [origin]
      split
      · rfl
      · simpa using none
    rw [base.resolve_eq plain, start, String.empty_append]
  · exact base.resolve_behind (.inr ⟨front, rfl⟩) plain (by simp) reached startsWith_behind

/-- A name does not start with a slash. -/
theorem IsName.startsWith_eq (isName : IsName segment) : segment.startsWith "/" = false := by
  rw [Bool.eq_false_iff]
  intro slash
  cases chars : segment.toList with
  -- A slash in front would be a slash in the name.
  | nil => simp [chars] at slash
  | cons c rest =>
    refine isName.whole ?_
    have first : '/' = c := by simpa [chars] using slash
    rw [chars, first]
    exact List.mem_cons_self

/-- A path that leads somewhere is followed by entering a name or by going up. -/
theorem BaseUri.resolve_step (base : BaseUri) (ends : EndsSegment before) (plain : ':' ∉ before.toList)
    (names : ∀ name ∈ segments, IsName name)
    (reached : resolve base.text before = base.root ++ joinText "/" segments) :
    resolve base.text (before ++ "..") = base.root ++ joinText "/" segments.dropLast ∧
      ∀ name, IsName name → ':' ∉ name.toList →
        resolve base.text (before ++ name) = base.root ++ joinText "/" (segments ++ [name]) ∧
          resolve base.text (before ++ (name ++ "/")) =
            base.root ++ joinText "/" (segments ++ [name]) := by
  refine ⟨?_, fun name isName name_plain => ⟨?_, ?_⟩⟩
  · -- Going up takes the name away that was entered last.
    rw [base.resolve_behind ends (by simp [plain]) names reached
      (startsWith_append ends (by decide +kernel))]
    simp [walk, cutText, cut]
  · rw [base.resolve_behind ends (by simp [plain, name_plain]) names reached
      (startsWith_append ends isName.startsWith_eq)]
    simp [walk, cutText_of_notMem isName.whole, applySegment_name isName]
  · -- A name is not empty, so the slash stands behind it and not at the start.
    have enters : (name ++ "/").startsWith "/" = false := by
      have other := isName.startsWith_eq
      have nonempty := isName.nonempty
      cases chars : name.toList with
      | nil => exact absurd (String.toList_inj.mp chars) nonempty
      | cons c rest => simp_all
    rw [base.resolve_behind ends (by simp [plain, name_plain]) names reached
      (startsWith_append ends enters), walk_name isName]

/-- The segments of a directory are those of the path without its leading slash. -/
theorem BaseUri.directory_split (base : BaseUri) :
    directory (split base.text).2 = directory base.path := by
  have pieces : cutText '/' ("/" ++ base.path) = "" :: cutText '/' base.path := by
    simp [cutText, cut]
  have nonempty : cutText '/' base.path ≠ [] := by simp [cutText, cut_ne_nil]
  rw [split_text, directory, directory, pieces, List.dropLast_cons_of_ne_nil nonempty]
  simp

end Uri

/-- Resolving a relative text against a URI with an authority gives a normal path below the root of
that authority. It starts from the directory of the URI, or from the root behind a slash; a name is
entered, and `..` leaves what was entered last. At the root there is nothing to leave, and a detour in
front of a segment makes no difference, so that references that only differ by it lead to the same
place of a document. -/
theorem Uri.resolve_normalizes (base : BaseUri) :
    (∀ relative : String, ':' ∉ relative.toList →
      ∃ segments, (∀ name ∈ segments, IsName name) ∧
        resolve base.text relative = base.root ++ joinText "/" segments) ∧
    resolve base.text "" = base.root ++ joinText "/" (directory base.path) ∧
    resolve base.text "/" = base.root ∧
    ∀ before after : String, EndsSegment before → ':' ∉ (before ++ after).toList →
      (∀ segments, (∀ name ∈ segments, IsName name) →
        resolve base.text before = base.root ++ joinText "/" segments →
        resolve base.text (before ++ "..") = base.root ++ joinText "/" segments.dropLast ∧
          ∀ name, IsName name → ':' ∉ name.toList →
            resolve base.text (before ++ name) = base.root ++ joinText "/" (segments ++ [name]) ∧
              resolve base.text (before ++ (name ++ "/")) =
                base.root ++ joinText "/" (segments ++ [name])) ∧
      (resolve base.text before = base.root →
        resolve base.text (before ++ "..") = base.root ∧
          resolve base.text (before ++ "../" ++ after) = resolve base.text (before ++ after)) ∧
      ∀ detour, Detour detour →
        (before ++ detour ++ after).startsWith "/" = (before ++ after).startsWith "/" →
        resolve base.text (before ++ detour ++ after) = resolve base.text (before ++ after) ∧
        ∀ (documents : Documents) (text text' : String),
          documentPart text = before ++ after → documentPart text' = before ++ detour ++ after →
          fragmentPart text' = fragmentPart text → before ++ after ≠ "" →
          (documents.canonical? (resolve base.text (before ++ after))).isSome = true →
          documents.resolve? base.text text' = documents.resolve? base.text text := by
  -- A walk from names leads to names, and its text is read off the base.
  refine ⟨fun relative plain => ⟨_, isName_walk base.isName_origin, base.resolve_eq plain⟩, ?_, ?_, ?_⟩
  · rw [base.resolve_eq (by simp), walk_empty, origin, ← base.directory_split]
    rfl
  · rw [base.resolve_eq (by simp), origin]
    simp [walk, cutText, cut, joinText]
  intro before after ends plain
  -- The colon is ruled out for the whole text, and so for both parts.
  have plain_before : ':' ∉ before.toList ∧ ':' ∉ after.toList := by simpa using plain
  refine ⟨fun segments names reached => base.resolve_step ends plain_before.1 names reached,
    fun toRoot => ⟨?_, ?_⟩, fun detour leads start => ?_⟩
  · rw [base.resolve_from_root ends (by simp [plain_before]) toRoot]
    simp [walk, cutText, cut, joinText]
  · -- Going up from no segment leaves none, so the rest starts from the root either way.
    have up : EndsSegment "../" := .inr ⟨"..", rfl⟩
    rw [String.append_assoc, base.resolve_from_root ends (by simp [plain_before]) toRoot,
      base.resolve_from_root ends plain toRoot, walk_append up, walk_up, List.dropLast_nil]
  · -- A detour adds nothing to the walk, and the text starts where it did.
    have same : resolve base.text (before ++ detour ++ after) = resolve base.text (before ++ after) := by
      have starts : origin base.text (before ++ detour ++ after) =
          origin base.text (before ++ after) := by
        rw [origin, origin, start]
      rw [base.resolve_eq (by simp [plain_before, leads.colon_notMem]), walk_detour ends leads, starts,
        ← base.resolve_eq plain]
    refine ⟨same, fun documents text text' named named' pointed nonempty registered => ?_⟩
    obtain ⟨document, registered⟩ := Option.isSome_iff_exists.mp registered
    -- Both texts name the document that is found where they resolve to, so nothing else is tried.
    have found := Documents.named?_of_registered nonempty registered
    have found' := Documents.named?_of_registered (leads.ne_empty before after) (same ▸ registered)
    rw [Documents.resolve?_eq, Documents.resolve?_eq, named, named', pointed, found, found']

namespace Uri

/-- A document in a directory `a` of a host. -/
def hostedUri : BaseUri := ⟨"http", "h", "a/b.json", by decide, by decide, by decide⟩

/-- From the directory `a` a name leads into it, one step up leads out of it, and more lead no further;
a detour on the way is as if it were not there. -/
theorem resolve_normalizes_hostedUri :
    resolve hostedUri.text "x" = "http://h/a/x" ∧ resolve hostedUri.text ".." = "http://h/" ∧
      resolve hostedUri.text "../.." = "http://h/" ∧
        resolve hostedUri.text "../x//./y/../z" = "http://h/x/z" := by
  obtain ⟨-, start, -, steps⟩ := resolve_normalizes hostedUri
  -- Each path goes on from one that was resolved before it.
  have inside := (steps "" "" (.inl rfl) (by decide)).1 ["a"]
    (by simpa using ⟨by decide, by decide, by decide, by decide⟩) start
  have outside : resolve hostedUri.text "../" = hostedUri.root := by decide +kernel
  have further := (steps "../" "" (.inr ⟨"..", rfl⟩) (by decide)).2.1 outside
  have skipped := (steps "../x//./" "z" (.inr ⟨"../x//.", rfl⟩) (by decide)).2.2 ("y" ++ "/../")
    (.back ⟨by decide, by decide, by decide, by decide⟩ (by decide)) (by decide +kernel)
  refine ⟨(inside.2 "x" ⟨by decide, by decide, by decide, by decide⟩ (by decide)).1.trans ?_,
    inside.1.trans ?_, further.1.trans ?_, skipped.1.trans ?_⟩ <;> decide +kernel

end Uri

end SchemaClasses
