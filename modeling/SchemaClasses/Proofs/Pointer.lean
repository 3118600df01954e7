import Mathlib.Data.List.Basic
import Mathlib.Tactic.IntervalCases
import SchemaClasses.Pointer

/-! Pointers: a token is read back as the name or the number that it was written for, and a longer
pointer selects from what a shorter one selects. -/

namespace SchemaClasses

/-- There is always a piece. -/
theorem cut_ne_nil {separator : Char} (chars : List Char) : cut separator chars ≠ [] := by
  cases chars with
  | nil => simp [cut]
  | cons c rest =>
    rw [cut]
    split
    · simp
    · split <;> simp

/-- Pieces of a text with a separator in it are the pieces before and behind it. -/
theorem cut_append {separator : Char} {before after : List Char} :
    cut separator (before ++ separator :: after) = cut separator before ++ cut separator after := by
  induction before with
  | nil => simp [cut]
  | cons c rest ih =>
    -- Each character that is put back in front either begins a new piece or joins the first one.
    simp only [List.cons_append, cut, ih]
    split
    · rfl
    · cases held : cut separator rest with
      | nil => exact absurd held (cut_ne_nil rest)
      | cons piece more => rfl

/-- A text without a separator is one piece. -/
theorem cut_of_notMem {separator : Char} {chars : List Char} (none : separator ∉ chars) :
    cut separator chars = [chars] := by
  induction chars with
  | nil => rfl
  | cons c rest ih =>
    rw [List.mem_cons, not_or] at none
    rw [cut, if_neg (Ne.symm none.1), ih none.2]

/-- The pieces before a slash come before those behind it. -/
theorem cutText_slash (before after : String) :
    cutText '/' (before ++ "/" ++ after) = cutText '/' before ++ cutText '/' after := by
  have chars : (before ++ "/" ++ after).toList = before.toList ++ '/' :: after.toList := by simp
  rw [cutText, chars, cut_append, List.map_append]
  rfl

/-- A text without a slash is one piece. -/
theorem cutText_of_notMem {text : String} (whole : '/' ∉ text.toList) : cutText '/' text = [text] := by
  rw [cutText, cut_of_notMem whole]
  simp

/-- What stands before the first separator and behind it does not depend on separators further on. -/
theorem append_separator_inj {separator : Char} {a b rest rest' : List Char} (none : separator ∉ a)
    (none' : separator ∉ b) (same : a ++ separator :: rest = b ++ separator :: rest') :
    a = b ∧ rest = rest' := by
  induction a generalizing b with
  -- A separator cannot begin the text in front of the first separator.
  | nil =>
    cases b with
    | nil => exact ⟨rfl, List.cons.inj same |>.2⟩
    | cons c b => exact absurd (List.cons.inj same).1 fun held => none' (held ▸ List.mem_cons_self)
  | cons c a ih =>
    cases b with
    | nil => exact absurd (List.cons.inj same).1 fun held => none (held ▸ List.mem_cons_self)
    | cons d b =>
      -- The first characters agree, and behind them it is the same statement again.
      obtain ⟨first, same⟩ := List.cons.inj same
      obtain ⟨rfl, rest⟩ := ih (fun held => none (List.mem_cons_of_mem _ held))
        (fun held => none' (List.mem_cons_of_mem _ held)) same
      exact ⟨first ▸ rfl, rest⟩

/-- A text is cut at its first separator. -/
theorem cutOnce_eq {separator : Char} {text before after : String}
    (chars : text.toList = before.toList ++ separator :: after.toList)
    (first : separator ∉ before.toList) : cutOnce separator text = some (before, after) := by
  -- Up to the first separator nothing stops the reading.
  have kept : ∀ c ∈ before.toList, (c != separator) = true := by
    intro c member
    rw [bne_iff_ne]
    rintro rfl
    exact first member
  have taken : text.toList.takeWhile (· != separator) = before.toList := by
    rw [chars, List.takeWhile_append_of_pos kept]
    simp
  simp only [cutOnce, taken]
  rw [chars, List.drop_left]
  simp

/-- What stands behind the last separator is the last piece. -/
theorem lastPiece_eq {separator : Char} {text piece : String} (before : List Char)
    (chars : text.toList = before ++ separator :: piece.toList) (last : separator ∉ piece.toList) :
    lastPiece separator text = piece := by
  simp [lastPiece, chars, cut_append, cut_of_notMem last]

/-- Every occurrence of a character replaced by other characters. -/
def replaceChar (old : Char) (new chars : List Char) : List Char :=
  chars.flatMap fun c => if c = old then new else [c]

namespace Pointer

/-- A character that is no tilde is not changed where slashes are decoded. -/
theorem decodeSlash_cons {c : Char} (plain : c ≠ '~') (rest : List Char) :
    decodeSlash (c :: rest) = c :: decodeSlash rest := by
  conv_lhs => unfold decodeSlash
  split <;> simp_all

/-- A character that is no tilde is not changed where tildes are decoded. -/
theorem decodeTilde_cons {c : Char} (plain : c ≠ '~') (rest : List Char) :
    decodeTilde (c :: rest) = c :: decodeTilde rest := by
  conv_lhs => unfold decodeTilde
  split <;> simp_all

/-- Text without a tilde is not changed by decoding. -/
theorem unescape_of_notMem {token : String} (plain : '~' ∉ token.toList) :
    unescape token = token := by
  -- Neither of the two steps finds a tilde to replace.
  have decoded (chars : List Char) (plain : '~' ∉ chars) :
      decodeTilde (decodeSlash chars) = chars := by
    induction chars with
    | nil => rfl
    | cons c rest ih =>
      rw [List.mem_cons, not_or] at plain
      rw [decodeSlash_cons (Ne.symm plain.1), decodeTilde_cons (Ne.symm plain.1), ih plain.2]
  rw [unescape, decoded _ plain, String.ofList_toList]

/-- A name is read back from its token. -/
@[simp] theorem unescape_escape (name : String) : unescape (escape name) = name := by
  have decoded (chars : List Char) :
      decodeTilde (decodeSlash (chars.flatMap escapeChar)) = chars := by
    induction chars with
    | nil => rfl
    | cons c rest ih =>
      rw [List.flatMap_cons]
      -- A tilde and a slash are each written as two characters, which the two steps take back.
      by_cases tilde : c = '~'
      · subst tilde
        simp [escapeChar, decodeSlash, decodeTilde, ih]
      · by_cases slash : c = '/'
        · subst slash
          simp [escapeChar, decodeSlash, decodeTilde, ih]
        · have plain : escapeChar c = [c] := by simp [escapeChar]
          rw [plain, List.singleton_append, decodeSlash_cons tilde, decodeTilde_cons tilde, ih]
  rw [unescape, escape, String.toList_ofList, decoded, String.ofList_toList]

/-- The token of a name is what two replacements make of it: the tildes first, so that those that come
in with the slashes stay as they are. -/
theorem toList_escape (name : String) :
    (escape name).toList =
      replaceChar '/' ['~', '1'] (replaceChar '~' ['~', '0'] name.toList) := by
  rw [escape, String.toList_ofList, replaceChar, replaceChar, List.flatMap_assoc]
  refine List.flatMap_congr fun c _ => ?_
  -- Only the tilde and the slash are replaced, each by one of the two steps.
  by_cases tilde : c = '~'
  · subst tilde
    rfl
  · by_cases slash : c = '/'
    · subst slash
      rfl
    · simp [escapeChar, tilde, slash]

/-- Different names have different tokens. -/
theorem escape_injective : Function.Injective escape :=
  Function.LeftInverse.injective unescape_escape

/-- A name has no slash in its token. -/
theorem slash_notMem_escape (name : String) : '/' ∉ (escape name).toList := by
  rw [escape, String.toList_ofList, List.mem_flatMap]
  rintro ⟨c, -, held⟩
  unfold escapeChar at held
  split at held
  · simp at held
  · simp at held
  · rename_i slash
    exact slash (List.mem_singleton.mp held).symm

/-- Only the number zero starts with the digit zero. -/
theorem toDigits_ne_zero_cons {n : Nat} (positive : 0 < n) (rest : List Char) :
    Nat.toDigits 10 n ≠ '0' :: rest := by
  induction n using Nat.strong_induction_on generalizing rest with
  | _ n ih =>
    intro digits
    -- A number of one digit starts with that digit, which is not zero.
    by_cases small : n < 10
    · rw [Nat.toDigits_of_lt_base small] at digits
      have first := (List.cons.inj digits).1
      interval_cases n <;> simp [Nat.digitChar] at first
    · -- The first digit is that of the number without its last digit.
      rw [Nat.toDigits_of_base_le (by decide) (Nat.not_lt.mp small)] at digits
      cases front : Nat.toDigits 10 (n / 10) with
      | nil => exact Nat.toDigits_ne_nil front
      | cons c more =>
        rw [front] at digits
        obtain ⟨rfl, -⟩ := List.cons.inj digits
        exact ih (n / 10) (by omega) (by omega) more front

/-- The number of an item is read back from its token. -/
@[simp] theorem index?_toString (n : Nat) : index? (toString n) = some n := by
  -- The token consists of the decimal digits of the number.
  have digits : (toString n).toList = Nat.toDigits 10 n := by
    rw [Nat.toString_eq_repr, Nat.repr_eq_ofList_toDigits, String.toList_ofList]
  unfold index?
  rw [digits]
  -- A token that starts with a zero is an index only if it is just that.
  rcases Nat.eq_zero_or_pos n with rfl | positive
  · simp
  · split
    · rename_i held
      exact absurd held (toDigits_ne_zero_cons positive [])
    · rename_i held
      exact absurd held (toDigits_ne_zero_cons positive _)
    · rename_i held
      exact absurd held Nat.toDigits_ne_nil
    · -- All characters are digits, and read as a number they give it back.
      have all : (Nat.toDigits 10 n).all Char.isDigit = true :=
        List.all_eq_true.mpr fun c member =>
          Nat.isDigit_of_mem_toDigits (by decide) (by decide) member
      have value : Nat.ofDigitChars 10 (Nat.toDigits 10 n) 0 = n :=
        Nat.ofDigitChars_toDigits (by decide) (by decide)
      simp only [all, if_true, Option.some.injEq]
      simpa [Nat.ofDigitChars, Nat.mul_comm] using value

/-- A character that is no digit does not occur in a number. -/
theorem notMem_toString {c : Char} (other : c.isDigit = false) (n : Nat) :
    c ∉ (toString n).toList := by
  rw [Nat.toString_eq_repr, Nat.repr_eq_ofList_toDigits, String.toList_ofList]
  intro member
  simp [Nat.isDigit_of_mem_toDigits (by decide) (by decide) member] at other

/-- One more token selects from what the pointer selects. -/
theorem select_append {value : Json} {pointer token : String} (whole : '/' ∉ token.toList) :
    select value (pointer ++ "/" ++ token) =
      (select value pointer).bind (step · (unescape token)) := by
  unfold select
  rw [cutText_slash, cutText_of_notMem whole]
  -- A pointer is empty, or starts with a slash, or selects nothing.
  cases tokens : cutText '/' pointer with
  -- A pointer has one piece at least, and the token is one more at the end.
  | nil => exact absurd (List.map_eq_nil_iff.mp tokens) (cut_ne_nil _)
  | cons first more =>
    by_cases empty : first = ""
    · subst empty
      cases more with
      | nil => simp
      | cons next more => simp [List.foldlM_append, Option.bind_assoc]
    · simp [empty]

end Pointer

end SchemaClasses
