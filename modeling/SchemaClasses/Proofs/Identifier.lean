import Mathlib.Data.List.Basic
import SchemaClasses.ClassName

/-! Identifiers: whatever the name of a class or of a field is made from, it is an identifier, or the form
that the language has for a word that it reserves. Of the forms of a name, which are the name itself and
the name with a number, the first one that is free is allocated. -/

namespace SchemaClasses

/-- Digits and capital letters stand for the halves of a byte. -/
theorem isIdentifierPart_upperHexDigit (n : Nat) : isIdentifierPart (upperHexDigit n) = true := by
  have digits : ∀ half < 16, isIdentifierPart (Nat.digitChar half).toUpper = true := by decide
  exact digits (n % 16) (Nat.mod_lt n (by decide))

/-- What stands for a character is made of parts of identifiers. -/
theorem isIdentifierPart_of_mem_sanitizeChar {c part : Char} (member : part ∈ sanitizeChar c) :
    isIdentifierPart part = true := by
  unfold sanitizeChar at member
  split at member
  · rename_i plain
    rwa [List.mem_singleton.mp member]
  · -- What is no part itself is a break that gives way to an underscore, or it is encoded.
    split at member
    · rw [List.mem_singleton.mp member]
      rfl
    · -- An underscore and two digits stand for each byte.
      obtain ⟨byte, -, inside⟩ := List.mem_flatMap.mp member
      simp only [encodeByte, List.mem_cons, List.not_mem_nil, or_false] at inside
      rcases inside with rfl | rfl | rfl
      · rfl
      · exact isIdentifierPart_upperHexDigit _
      · exact isIdentifierPart_upperHexDigit _

/-- A character that is no digit gives way to one that an identifier may start with. -/
theorem exists_sanitizeChar {c : Char} (other : c.isDigit = false) :
    ∃ first rest, sanitizeChar c = first :: rest ∧ isIdentifierStart first = true := by
  unfold sanitizeChar
  split
  · rename_i plain
    -- A part of an identifier that is no digit is a letter or an underscore.
    refine ⟨c, [], rfl, ?_⟩
    simpa [isIdentifierPart, isIdentifierStart, Char.isAlphanum, other] using plain
  · -- In all other cases an underscore comes first.
    split
    · exact ⟨'_', [], rfl, rfl⟩
    · obtain ⟨byte, bytes, encoded⟩ := List.exists_cons_of_ne_nil (String.utf8EncodeChar_ne_nil (c := c))
      rw [encoded]
      exact ⟨'_', _, rfl, rfl⟩

/-- Whatever a name is made from, it is an identifier. -/
theorem isIdentifier_sanitize (text : String) : isIdentifier (sanitize text) = true := by
  unfold sanitize
  dsimp only
  split
  · assumption
  · rw [isIdentifier, String.toList_ofList]
    -- Each character gives way to parts of identifiers, so a whole text does.
    have parts (letters : List Char) :
        (letters.flatMap sanitizeChar).all isIdentifierPart = true := by
      refine List.all_eq_true.mpr fun part member => ?_
      obtain ⟨c, -, inside⟩ := List.mem_flatMap.mp member
      exact isIdentifierPart_of_mem_sanitizeChar inside
    cases letters : text.toList with
    | nil => rfl
    | cons c rest =>
      dsimp only
      split
      · -- An underscore stands in front of a digit.
        exact parts (c :: rest)
      · rename_i other
        obtain ⟨first, more, form, start⟩ := exists_sanitizeChar (Bool.eq_false_iff.mpr other)
        have whole := parts (c :: rest)
        rw [List.flatMap_cons, form] at whole ⊢
        simp only [List.cons_append, List.all_cons, Bool.and_eq_true] at whole
        simp only [List.nil_append, List.cons_append, spellsIdentifier, start, whole.2, Bool.and_self]

/-- An identifier is sanitized already. -/
theorem sanitize_of_isIdentifier {text : String} (identifier : isIdentifier text = true) :
    sanitize text = text :=
  if_pos identifier

/-- Identifiers are the texts that are sanitized already. -/
theorem sanitize_eq_self_iff {text : String} : sanitize text = text ↔ isIdentifier text = true :=
  ⟨fun same => same ▸ isIdentifier_sanitize text, sanitize_of_isIdentifier⟩

/-- What a class is called is an identifier, whatever it is named after. -/
theorem isIdentifier_className {naming : NamingSettings} {text : String} :
    isIdentifier (naming.className text) = true := isIdentifier_sanitize _

/-! What the name of a class keeps of the text that it is made from. -/

/-- The letters and digits of a text, whatever their case. -/
def alphanumerics (letters : List Char) : List Char :=
  (letters.filter Char.isAlphanum).map Char.toLower

/-- Letters and digits are ASCII characters. -/
theorem toNat_lt_of_isAlphanum {c : Char} (plain : c.isAlphanum = true) : c.toNat < 0x80 := by
  -- The last of the ranges for letters and digits ends below the bound.
  change (decide (c.val ≥ 65 ∧ c.val ≤ 90) || (c.val ≥ 97 && c.val ≤ 122) ||
    (c.val ≥ 48 && c.val ≤ 57)) = true at plain
  have same : c.toNat = c.val.toNat := rfl
  simp [UInt32.le_iff_toNat_le] at plain
  omega

/-- A letter is the same letter in either case, and a digit has none. -/
theorem alphanumerics_recased {c : Char} (plain : c.isAlphanum = true) :
    alphanumerics [c.toUpper] = [c.toLower] ∧ alphanumerics [c.toLower] = [c.toLower] := by
  have ascii : ∀ n < 0x80, (Char.ofNat n).isAlphanum = true →
      alphanumerics [(Char.ofNat n).toUpper] = [(Char.ofNat n).toLower] ∧
        alphanumerics [(Char.ofNat n).toLower] = [(Char.ofNat n).toLower] := by
    decide +kernel
  simpa using ascii c.toNat (toNat_lt_of_isAlphanum plain) (by simpa using plain)

@[simp] theorem alphanumerics_append (front back : List Char) :
    alphanumerics (front ++ back) = alphanumerics front ++ alphanumerics back := by
  simp [alphanumerics]

/-- Characters whose forms keep them are kept in a text. -/
theorem alphanumerics_sublist_flatMap {form : Char → List Char}
    (kept : ∀ c, c.isAlphanum = true → [c.toLower].Sublist (alphanumerics (form c))) :
    ∀ letters, (alphanumerics letters).Sublist (alphanumerics (letters.flatMap form))
  | [] => .slnil
  | c :: rest => by
    -- What the rest keeps is joined by what the first character keeps, if it is a letter or a
    -- digit.
    have others := alphanumerics_sublist_flatMap kept rest
    rw [List.flatMap_cons, alphanumerics_append]
    cases plain : c.isAlphanum with
    | true =>
      have split : alphanumerics (c :: rest) = [c.toLower] ++ alphanumerics rest := by
        simp [alphanumerics, plain]
      rw [split]
      exact (kept c plain).append others
    | false =>
      have skipped : alphanumerics (c :: rest) = alphanumerics rest := by
        simp [alphanumerics, plain]
      rw [skipped]
      exact others.trans (List.sublist_append_right _ _)

/-- Small letters are the same letters. -/
theorem alphanumerics_sublist_toLower (letters : List Char) :
    (alphanumerics letters).Sublist (alphanumerics (letters.map Char.toLower)) := by
  rw [List.map_eq_flatMap]
  exact alphanumerics_sublist_flatMap (fun c plain => by rw [(alphanumerics_recased plain).2]) letters

/-- The capital of a letter is the same letter. -/
theorem sublist_alphanumerics_upperChar {c : Char} (plain : c.isAlphanum = true) :
    [c.toLower].Sublist (alphanumerics (upperChar c)) := by
  simp [upperChar, toNat_lt_of_isAlphanum plain, (alphanumerics_recased plain).1]

/-- Breaks between words are no letters or digits. -/
theorem isWordBreak_eq_false {c : Char} (plain : c.isAlphanum = true) : isWordBreak c = false := by
  refine Bool.eq_false_iff.mpr fun separates => ?_
  simp only [isWordBreak, Bool.or_eq_true, beq_iff_eq] at separates
  rcases separates with (rfl | rfl) | rfl <;> cases plain

/-- The pieces of a text hold all of it but what separates them. -/
theorem flatten_cutWhere (separates : Char → Bool) (letters : List Char) :
    (cutWhere separates letters).flatten = letters.filter fun c => !separates c := by
  induction letters with
  | nil => rfl
  | cons c rest ih =>
    -- A separator ends a piece, and every other character joins the one behind it.
    rw [cutWhere]
    split
    · rename_i separate
      simp [separate, ih]
    · rename_i other
      rw [List.filter_cons_of_pos (by simpa using other), ← ih]
      -- The character goes in front of the first piece.
      split
      · rename_i pieces
        rw [pieces]
        rfl
      · rename_i pieces
        rw [pieces]
        rfl

namespace NamingSettings

variable {naming : NamingSettings}

/-- A word keeps its letters and digits. -/
theorem alphanumerics_sublist_caseWord (word : List Char) :
    (alphanumerics word).Sublist (alphanumerics (naming.caseWord word)) := by
  have capitals := alphanumerics_sublist_flatMap fun _ => sublist_alphanumerics_upperChar
  unfold caseWord
  dsimp only
  -- A capitalised acronym is written whole, and any other word begins with a capital.
  split
  · exact capitals word
  · cases word with
    | nil => exact .slnil
    | cons first rest =>
      -- The first letter is a capital, and the others may be small.
      have first_kept := capitals [first]
      rw [List.flatMap_singleton] at first_kept
      have split : alphanumerics (first :: rest) = alphanumerics [first] ++ alphanumerics rest :=
        alphanumerics_append [first] rest
      dsimp only
      rw [split]
      split
      · rw [alphanumerics_append]
        exact first_kept.append (alphanumerics_sublist_toLower rest)
      · rw [alphanumerics_append]
        exact first_kept.append (.refl _)

/-- A word of letters and digits becomes no longer. -/
theorem length_caseWord {word : List Char} (plain : ∀ c ∈ word, c.isAlphanum = true) :
    (naming.caseWord word).length = word.length := by
  -- No letter or digit has an uppercase form of several characters.
  have single {c : Char} (member : c ∈ word) : (upperChar c).length = 1 := by
    simp [upperChar, toNat_lt_of_isAlphanum (plain c member)]
  unfold caseWord
  dsimp only
  split
  · rw [List.length_flatMap, List.map_congr_left fun c => single]
    simp
  · cases word with
    | nil => rfl
    | cons first rest =>
      dsimp only
      split <;> simp [single, Nat.add_comm]

/-- The words of a text keep its letters and digits. -/
theorem alphanumerics_sublist_pascalCase (text : String) :
    (alphanumerics text.toList).Sublist (alphanumerics (naming.pascalCase text).toList) := by
  -- Pieces are written one after the other, so it is enough that each keeps its letters.
  have pieces (words : List (List Char)) :
      (alphanumerics words.flatten).Sublist (alphanumerics (words.flatMap naming.caseWord)) := by
    induction words with
    | nil => exact .slnil
    | cons word words ih =>
      rw [List.flatten_cons, List.flatMap_cons, alphanumerics_append, alphanumerics_append]
      exact (alphanumerics_sublist_caseWord word).append ih
  -- What separates the words has no letters or digits in it.
  have whole : alphanumerics (cutWhere isWordBreak text.toList).flatten = alphanumerics text.toList := by
    rw [flatten_cutWhere, alphanumerics, List.filter_filter, alphanumerics]
    congr 1
    refine List.filter_congr fun c _ => ?_
    cases plain : c.isAlphanum with
    | true => simp [isWordBreak_eq_false plain]
    | false => rfl
  have kept := pieces (cutWhere isWordBreak text.toList)
  rw [whole] at kept
  rw [pascalCase, String.toList_ofList]
  exact kept

/-- Words of letters and digits become nothing else. -/
theorem length_pascalCase {text : String}
    (plain : ∀ c ∈ text.toList, c.isAlphanum = true ∨ isWordBreak c = true) :
    (naming.pascalCase text).toList.length = (alphanumerics text.toList).length := by
  -- What is kept and what is written have the same length, word by word.
  have pieces (words : List (List Char)) (plain : ∀ c ∈ words.flatten, c.isAlphanum = true) :
      (words.flatMap naming.caseWord).length = words.flatten.length := by
    induction words with
    | nil => rfl
    | cons word words ih =>
      simp only [List.flatten_cons, List.mem_append] at plain
      rw [List.flatMap_cons, List.flatten_cons, List.length_append, List.length_append,
        length_caseWord fun c member => plain c (.inl member), ih fun c member => plain c (.inr member)]
  rw [pascalCase, String.toList_ofList, pieces, flatten_cutWhere, alphanumerics, List.length_map]
  · congr 1
    refine List.filter_congr fun c member => ?_
    -- A character of such a text is a letter or digit, or it separates.
    rcases plain c member with plain | separates
    · simp [plain, isWordBreak_eq_false plain]
    · cases letter : c.isAlphanum with
      | true => simp [isWordBreak_eq_false letter] at separates
      | false => simp [separates]
  · intro c member
    rw [flatten_cutWhere] at member
    obtain ⟨member, joins⟩ := List.mem_filter.mp member
    exact (plain c member).resolve_right (by simpa using joins)

end NamingSettings

/-- An identifier keeps the letters and digits that it is made from. -/
theorem alphanumerics_sublist_sanitize (text : String) :
    (alphanumerics text.toList).Sublist (alphanumerics (sanitize text).toList) := by
  -- Each letter and digit stands for itself.
  have kept : (alphanumerics text.toList).Sublist
      (alphanumerics (text.toList.flatMap sanitizeChar)) :=
    alphanumerics_sublist_flatMap (fun c plain => by
      simp [sanitizeChar, isIdentifierPart, plain, alphanumerics]) _
  unfold sanitize
  dsimp only
  split
  · exact .refl _
  · -- An identifier may be given an underscore in front, which takes nothing away.
    rw [String.toList_ofList, alphanumerics_append]
    exact kept.trans (List.sublist_append_right _ _)

/-- Letters and digits become an identifier with nothing else but an underscore in it. -/
theorem alphanumerics_sanitize {text : String} (plain : ∀ c ∈ text.toList, c.isAlphanum = true) :
    alphanumerics (sanitize text).toList = alphanumerics text.toList := by
  -- No character of such a text is changed.
  have same : text.toList.flatMap sanitizeChar = text.toList := by
    rw [List.flatMap_congr fun c member => show sanitizeChar c = [c] by
      simp [sanitizeChar, isIdentifierPart, plain c member]]
    simp
  unfold sanitize
  dsimp only
  split
  · rfl
  · rw [String.toList_ofList, alphanumerics_append, same]
    -- What may stand in front is an underscore.
    split
    · rename_i none
      simp [none, alphanumerics]
    · split <;> simp [alphanumerics]

/-- What a class that is named after a text is called: an identifier with the letters and digits of the text
in it, in their order and whatever their case, and with no others if there is nothing else in the text but
breaks between words. -/
structure IsNamedAfter (text name : String) : Prop where
  identifier : isIdentifier name = true
  keeps : (alphanumerics text.toList).Sublist (alphanumerics name.toList)
  exact : (∀ c ∈ text.toList, c.isAlphanum = true ∨ isWordBreak c = true) →
    alphanumerics name.toList = alphanumerics text.toList

/-- A class is named after the text that its name is made from. -/
theorem isNamedAfter_className (naming : NamingSettings) (text : String) :
    IsNamedAfter text (naming.className text) where
  identifier := isIdentifier_className
  keeps := (NamingSettings.alphanumerics_sublist_pascalCase text).trans (alphanumerics_sublist_sanitize _)
  exact plain := by
    -- The words are as long as what they keep, so that they hold nothing else.
    have kept : (alphanumerics text.toList).Sublist (alphanumerics (naming.pascalCase text).toList) :=
      NamingSettings.alphanumerics_sublist_pascalCase text
    have whole : (naming.pascalCase text).toList.length = (alphanumerics text.toList).length :=
      NamingSettings.length_pascalCase plain
    have long : (alphanumerics (naming.pascalCase text).toList).length ≤
        (alphanumerics text.toList).length := by
      rw [← whole, alphanumerics, List.length_map]
      exact List.length_filter_le _ _
    have same := kept.eq_of_length_le long
    have all : ∀ c ∈ (naming.pascalCase text).toList, c.isAlphanum = true := by
      rw [same, alphanumerics, List.length_map] at whole
      exact List.length_filter_eq_length_iff.mp whole.symm
    exact (alphanumerics_sanitize all).trans same.symm

/-- A plural loses an ending, if anything. -/
theorem singular_cases (text : String) :
    singular text = text ∨ singular text ++ "s" = text ∨ singular text ++ "es" = text := by
  -- An ending that is cut off can be put back.
  have without {ending : List Char} (suffix : ending.isSuffixOf text.toList = true) :
      String.ofList (text.toList.take (text.toList.length - ending.length)) ++ String.ofList ending =
        text := by
    obtain ⟨front, chars⟩ := List.isSuffixOf_iff_suffix.mp suffix
    have taken : text.toList.take (text.toList.length - ending.length) = front := by simp [← chars]
    rw [taken, ← String.ofList_append, chars, String.ofList_toList]
  unfold singular
  dsimp only
  -- The longer ending is tried first, and a text without either stays as it is.
  split
  · rename_i plural
    exact .inr (.inr (without (Bool.and_eq_true_iff.mp plural).1))
  · rw [Option.getD_none]
    split
    · rename_i plural
      exact .inr (.inl (without (Bool.and_eq_true_iff.mp plural).1))
    · exact .inl rfl

/-- An identifier with more parts behind it is one. -/
theorem isIdentifier_append {name tail : String} (identifier : isIdentifier name = true)
    (parts : tail.toList.all isIdentifierPart = true) : isIdentifier (name ++ tail) = true := by
  unfold isIdentifier at identifier ⊢
  rw [String.toList_append]
  -- Only the first character is asked to start an identifier, and it stays the first.
  cases letters : name.toList with
  | nil =>
    rw [letters] at identifier
    cases identifier
  | cons first rest =>
    rw [letters] at identifier
    simp only [spellsIdentifier, Bool.and_eq_true] at identifier
    simp only [List.cons_append, spellsIdentifier, List.all_append, identifier.1, identifier.2, parts,
      Bool.and_self]

/-- An identifier with a number behind it is one. -/
theorem isIdentifier_append_toString {name : String} (identifier : isIdentifier name = true) (n : Nat) :
    isIdentifier (name ++ toString n) = true := by
  refine isIdentifier_append identifier (List.all_eq_true.mpr fun c member => ?_)
  rw [Nat.toString_eq_repr, Nat.repr_eq_ofList_toDigits, String.toList_ofList] at member
  simp [isIdentifierPart, Char.isAlphanum,
    Nat.isDigit_of_mem_toDigits (by decide) (by decide) member]

/-- The forms of a name: the name itself, which counts as number zero, and the name with a number behind it. -/
def nameForm (candidate : String) : Nat → String
  | 0 => candidate
  | n + 1 => candidate ++ toString (n + 1)

/-- All forms of an identifier are identifiers. -/
theorem isIdentifier_nameForm {candidate : String} (identifier : isIdentifier candidate = true) (n : Nat) :
    isIdentifier (nameForm candidate n) = true := by
  cases n with
  | zero => exact identifier
  | succ n => exact isIdentifier_append_toString identifier (n + 1)

section

variable {candidate name : String} {taken : String → Bool}

/-- The forms of a name are tried one after the other. -/
theorem allocate_eq_find? : allocate candidate taken =
    ((List.range suffixLimit).find? fun n => !taken (nameForm candidate n)).elim
      (.error (.namesExhausted candidate)) fun n => .ok (nameForm candidate n) := by
  -- The candidate itself is the form with number zero.
  have forms : List.range suffixLimit = 0 :: (List.range (suffixLimit - 1)).map (· + 1) :=
    List.range_succ_eq_map
  have suffixes : List.range' 1 (suffixLimit - 1) = (List.range (suffixLimit - 1)).map (1 + ·) :=
    List.range'_eq_map_range
  rw [forms, List.find?_cons, allocate, suffixes]
  cases free : taken candidate with
  | false => simp [nameForm, free]
  | true =>
    -- Behind the candidate itself, each form is the candidate with its number.
    simp only [List.find?_map, Nat.add_comm 1, nameForm, free, Bool.not_true, Bool.false_eq_true, if_false,
      Function.comp_def]
    cases (List.range (suffixLimit - 1)).find? fun n => !taken (candidate ++ toString (n + 1)) <;> rfl

/-- The name that is allocated is the first form of the candidate that is free. -/
theorem allocate_eq_ok_iff : allocate candidate taken = .ok name ↔
    ∃ n < suffixLimit, nameForm candidate n = name ∧ taken name = false ∧
      ∀ m < n, taken (nameForm candidate m) = true := by
  rw [allocate_eq_find?]
  -- The search tells the first free form, or that none is free.
  cases found : (List.range suffixLimit).find? fun n => !taken (nameForm candidate n) with
  | some n =>
    obtain ⟨free, inside, before⟩ := List.find?_range_eq_some.mp found
    simp only [Bool.not_eq_true', List.mem_range, Bool.not_not] at free inside before
    rw [Option.elim_some, Except.ok.injEq]
    constructor
    · rintro rfl
      exact ⟨n, inside, rfl, free, before⟩
    · rintro ⟨m, _, rfl, free', before'⟩
      -- Neither of two first free forms comes before the other.
      rcases Nat.lt_trichotomy n m with less | rfl | less
      · simp [before' n less] at free
      · rfl
      · simp [before m less] at free'
  | none =>
    -- Without a free form nothing can be allocated, so no form satisfies the right side.
    have full := List.find?_range_eq_none.mp found
    simp only [Bool.not_not] at full
    simp only [Option.elim_none, reduceCtorEq, false_iff]
    rintro ⟨n, inside, rfl, free, -⟩
    simp [full n inside] at free

/-- Nothing is allocated if all forms of the candidate are taken, and only then. -/
theorem allocate_eq_error_iff {fault : Fault} : allocate candidate taken = .error fault ↔
    fault = .namesExhausted candidate ∧ ∀ n < suffixLimit, taken (nameForm candidate n) = true := by
  rw [allocate_eq_find?]
  cases found : (List.range suffixLimit).find? fun n => !taken (nameForm candidate n) with
  -- Some form is free, so the error side and the full side are both false.
  | some n =>
    obtain ⟨free, inside, -⟩ := List.find?_range_eq_some.mp found
    simp only [Bool.not_eq_true', List.mem_range] at free inside
    simp only [Option.elim_some, reduceCtorEq, false_iff]
    rintro ⟨-, full⟩
    simp [full n inside] at free
  -- No form is free, which is what the error says.
  | none =>
    have full := List.find?_range_eq_none.mp found
    simp only [Bool.not_not] at full
    rw [Option.elim_none, Except.error.injEq, eq_comm]
    exact ⟨fun same => ⟨same, full⟩, And.left⟩

/-- A name that is allocated is free. -/
theorem free_of_allocate (allocated : allocate candidate taken = .ok name) : taken name = false := by
  obtain ⟨_, _, _, free, _⟩ := allocate_eq_ok_iff.mp allocated
  exact free

/-- The free form of an identifier is an identifier. -/
theorem isIdentifier_of_allocate (identifier : isIdentifier candidate = true)
    (allocated : allocate candidate taken = .ok name) : isIdentifier name = true := by
  obtain ⟨n, _, rfl, _⟩ := allocate_eq_ok_iff.mp allocated
  exact isIdentifier_nameForm identifier n

end

/-- There is no dot in an identifier. -/
theorem dot_notMem_of_isIdentifier {name : String} (identifier : isIdentifier name = true) :
    '.' ∉ name.toList := by
  unfold isIdentifier at identifier
  cases letters : name.toList with
  | nil => exact List.not_mem_nil
  -- Neither the first character nor any part may be a dot.
  | cons first rest =>
    rw [letters] at identifier
    simp only [spellsIdentifier, Bool.and_eq_true, List.all_eq_true] at identifier
    intro member
    rcases List.mem_cons.mp member with rfl | member
    · exact absurd identifier.1 (by decide)
    · exact absurd (identifier.2 '.' member) (by decide)

/-- No language reserves a word that ends in an underscore. -/
theorem Language.isReserved_append_underscore (language : Language) (word : String) :
    language.isReserved (word ++ "_") = false := by
  have endings : ∀ word ∈ language.reservedWords, word.toList.getLast? ≠ some '_' := by
    cases language <;> decide +kernel
  refine Bool.eq_false_iff.mpr fun reserved => endings _ (of_decide_eq_true reserved) ?_
  simp

/-- How a language spells the field that a word names. -/
inductive Language.FieldForm (language : Language) (word : String) : String → Prop
  /-- The word itself, which is an identifier. -/
  | plain (identifier : isIdentifier word = true) (free : language.isReserved word = false) :
    FieldForm language word word
  /-- A reserved word between backticks. -/
  | quoted (kotlin : language = .kotlin) (reserved : language.isReserved word = true) :
    FieldForm language word ("`" ++ word ++ "`")
  /-- A reserved word as a raw identifier. -/
  | raw (rust : language = .rust) (reserved : language.isReserved word = true)
    (spellable : word ∉ ["self", "Self", "super", "crate"]) : FieldForm language word ("r#" ++ word)
  /-- An identifier in place of a reserved word that has no escaped form. -/
  | marked (reserved : language.isReserved word = true)
    (unescapable : language = .java ∨ language = .typescript ∨
      language = .rust ∧ word ∈ ["self", "Self", "super", "crate"])
    (identifier : isIdentifier (word ++ "_") = true) (free : language.isReserved (word ++ "_") = false) :
    FieldForm language word (word ++ "_")

/-- An identifier is escaped as the language demands. -/
theorem Language.fieldForm_escapeReserved {language : Language} {word : String}
    (identifier : isIdentifier word = true) : language.FieldForm word (language.escapeReserved word) := by
  -- A reserved word with an underscore behind it is still an identifier, and it is not reserved.
  have other : isIdentifier (word ++ "_") = true := isIdentifier_append identifier (by decide)
  have free := language.isReserved_append_underscore word
  unfold escapeReserved
  split
  · rename_i reserved
    -- Each language quotes, marks or prefixes the words it reserves, and Rust has some it cannot prefix.
    cases language with
    | kotlin => exact .quoted rfl reserved
    | java => exact .marked reserved (.inl rfl) other free
    | typescript => exact .marked reserved (.inr (.inl rfl)) other free
    | rust =>
      dsimp only
      split
      · rename_i unrawable
        exact .marked reserved (.inr (.inr ⟨rfl, unrawable⟩)) other free
      · rename_i spellable
        exact .raw rfl reserved spellable
  · rename_i free
    exact .plain identifier (Bool.eq_false_iff.mpr free)

/-- A name that is an identifier which the language does not reserve is that of the field. -/
theorem fieldName_of_isIdentifier {text : String} {language : Language}
    (identifier : isIdentifier text = true) (free : language.isReserved text = false) :
    fieldName text language = text := by
  rw [fieldName, sanitize_of_isIdentifier identifier]
  unfold Language.escapeReserved
  rw [if_neg (by simp [free])]

/-- From every text an identifier is made, which stays as it is when it is made into one again and is the
text itself if that is one; classes are named after texts by identifiers that keep their letters and digits,
however acronyms are written, and classes of items after the text with or without the ending of a plural; and
the name of a field is one that the language does not reserve, or the language's form of one that it does. -/
theorem identifiers_of_text (naming : NamingSettings) (language : Language) (text : String) :
    isIdentifier (sanitize text) = true ∧
      (sanitize text = text ↔ isIdentifier text = true) ∧
        sanitize (sanitize text) = sanitize text ∧
          isIdentifier (naming.className text) = true ∧ IsNamedAfter text (naming.className text) ∧
            isIdentifier (naming.itemClassName text) = true ∧
              (∃ stem, (stem = text ∨ stem ++ "s" = text ∨ stem ++ "es" = text) ∧
                IsNamedAfter stem (naming.itemClassName text)) ∧
                language.FieldForm (sanitize text) (fieldName text language) := by
  -- An identifier is made from every text, so what else is stated needs no condition.
  have identifier := isIdentifier_sanitize text
  refine ⟨identifier, sanitize_eq_self_iff, sanitize_of_isIdentifier identifier, isIdentifier_className,
    isNamedAfter_className naming text, isIdentifier_className,
    ⟨singular text, singular_cases text, isNamedAfter_className naming _⟩, ?_⟩
  exact Language.fieldForm_escapeReserved identifier

end SchemaClasses
