import Shading.Model.Data
import Shading.Proofs.Packing
import Mathlib
/-!
The text of a usage names its flags and gives the bits that have no name as a number, and is read
back as the same usage.
-/

namespace Shading

namespace Text

-- A text that can be told from the blanks and the separators around it.
structure IsWord (separator : Char) (word : List Char) : Prop where
  ne_nil : word ≠ []
  plain  : ∀ c ∈ word, isBlank c = false ∧ c ≠ separator

variable {separator : Char} {word text rest lead trail : List Char}

theorem IsWord.not_mem (h : IsWord separator word) : separator ∉ word :=
  fun mem => (h.plain separator mem).right rfl

theorem IsWord.reverse (h : IsWord separator word) : IsWord separator word.reverse where
  ne_nil := by simpa using h.ne_nil
  plain  := by simpa using h.plain

theorem cutAt_of_not_mem (h : separator ∉ text) : cutAt separator text = [text] := by
  induction text
  case nil => rfl
  case cons c text hi =>
    have ⟨ne, h⟩ := not_or.mp (mt List.mem_cons.mpr h)
    simp [cutAt, Ne.symm ne, hi h]

theorem cutAt_append (h : separator ∉ text) :
    cutAt separator (text ++ separator :: rest) = text :: cutAt separator rest := by
  induction text
  case nil => simp [cutAt]
  case cons c text hi =>
    have ⟨ne, h⟩ := not_or.mp (mt List.mem_cons.mpr h)
    simp [cutAt, Ne.symm ne, hi h]

theorem dropWhile_isBlank (h : IsWord separator word) (blank : ∀ c ∈ lead, isBlank c) :
    (lead ++ word ++ rest).dropWhile isBlank = word ++ rest := by
  obtain ⟨c, cs, rfl⟩ := List.exists_cons_of_ne_nil h.ne_nil
  have solid := (h.plain c List.mem_cons_self).left
  rw [List.append_assoc, List.dropWhile_append_of_pos blank, List.cons_append,
    List.dropWhile_cons_of_neg (by simp [solid])]

theorem trim_word (h : IsWord separator word) (before : ∀ c ∈ lead, isBlank c)
    (after : ∀ c ∈ trail, isBlank c) : trim (lead ++ word ++ trail) = word := by
  have after : ∀ c ∈ trail.reverse, isBlank c := by simpa using after
  have last : (trail.reverse ++ word.reverse ++ []).dropWhile isBlank = word.reverse ++ [] :=
    dropWhile_isBlank h.reverse after
  rw [trim, dropWhile_isBlank h before, List.reverse_append]
  simpa using congrArg List.reverse last

-- Words that are joined by separators between blanks are the pieces between the separators.
theorem map_trim_cutAt {words : List (List Char)} (filled : words ≠ [])
    (solid : isBlank separator = false) (h : ∀ word ∈ words, IsWord separator word)
    (before : ∀ c ∈ lead, isBlank c) :
    (cutAt separator (lead ++ [' ', separator, ' '].intercalate words)).map trim = words := by
  have apart {text : List Char} (blank : ∀ c ∈ text, isBlank c) : separator ∉ text :=
    fun mem => by simp [blank _ mem] at solid
  have space : ∀ c ∈ [' '], isBlank c := List.forall_mem_singleton.mpr rfl
  induction words generalizing lead
  case nil => exact absurd rfl filled
  case cons word words hi =>
    have ⟨first, others⟩ := List.forall_mem_cons.mp h
    cases words
    case nil =>
      have whole : trim (lead ++ word ++ []) = word := trim_word first before nofun
      rw [List.intercalate_singleton, cutAt_of_not_mem]
      · simpa using whole
      · simp [apart before, first.not_mem]
    case cons word' words =>
      have later := hi (List.cons_ne_nil _ _) others space
      have split : lead ++ [' ', separator, ' '].intercalate (word :: word' :: words) =
          (lead ++ word ++ [' ']) ++ separator ::
            ([' '] ++ [' ', separator, ' '].intercalate (word' :: words)) := by
        rw [List.intercalate_cons_cons]
        simp
      rw [split, cutAt_append, List.map_cons, later, trim_word first before space]
      simp [apart before, first.not_mem, apart space]

-- A text with a word in front is not blank.
theorem trim_ne_nil (h : IsWord separator word) : trim (word ++ rest) ≠ [] := by
  obtain ⟨c, mem⟩ := List.exists_mem_of_ne_nil word h.ne_nil
  intro blank
  have kept : ([] ++ word ++ rest).dropWhile isBlank = word ++ rest := dropWhile_isBlank h nofun
  rw [List.nil_append] at kept
  rw [trim, kept, List.reverse_eq_nil_iff, List.dropWhile_eq_nil_iff] at blank
  have solid := (h.plain c mem).left
  simp [blank c (by simp [mem])] at solid

theorem isSome_of_hexValue? {high n : Nat} (h : hexValue? high text = some n) :
    ∀ c ∈ text, (hexDigit? c).isSome := by
  induction text generalizing high
  case nil => exact nofun
  case cons c text hi =>
    simp only [hexValue?, List.foldlM_cons, Option.bind_eq_bind, Option.bind_eq_some_iff,
      Option.map_eq_some_iff] at h
    obtain ⟨_, ⟨d, digit, _⟩, h⟩ := h
    exact List.forall_mem_cons.mpr ⟨Option.isSome_of_eq_some digit, hi h⟩

theorem isBlank_of_hexDigit? {c : Char} (h : (hexDigit? c).isSome) : isBlank c = false := by
  have visible : 48 ≤ c.toNat ∧ c.toNat ≤ 102 := by
    simp only [hexDigit?, Char.isDigit, Char.le_def, Bool.and_eq_true, decide_eq_true_eq,
      ge_iff_le, UInt32.le_iff_toNat_le] at h
    change 48 ≤ c.val.toNat ∧ c.val.toNat ≤ 102
    split at h
    case isTrue digit => exact ⟨digit.left, digit.right.trans (by decide)⟩
    case isFalse =>
      split at h
      case isTrue lower => exact ⟨le_trans (by decide) lower.left, lower.right⟩
      case isFalse =>
        split at h
        case isTrue upper => exact ⟨le_trans (by decide) upper.left, upper.right.trans (by decide)⟩
        case isFalse      => cases h
  simp only [isBlank, Bool.or_eq_false_iff, Bool.and_eq_false_iff, decide_eq_false_iff_not,
    beq_eq_false_iff_ne]
  omega

end Text

namespace Usage

variable {v : Usage}

-- A word with what it stands for.
structure Reads (word : List Char) (u : Usage) : Prop where
  isWord : Text.IsWord '|' word
  piece  : piece? word = some u

theorem reads_flag (flag : Flag) : Reads flag.text.toList (only flag) where
  isWord := by
    have plain : flag.text.toList.all fun c => !Text.isBlank c && c != '|' := by
      cases flag <;> rfl
    refine ⟨by cases flag <;> decide, fun c mem => ?_⟩
    simpa using List.all_eq_true.mp plain c mem
  piece  := by cases flag <;> decide +kernel

theorem reads_word (word : BitVec 16) :
    Reads ('0' :: 'x' :: Text.hexDigits word.toNat) ⟨word⟩ where
  isWord := by
    refine ⟨List.cons_ne_nil _ _, ?_⟩
    simp only [List.forall_mem_cons]
    refine ⟨⟨rfl, by decide⟩, ⟨rfl, by decide⟩, fun c mem => ?_⟩
    have digit := Text.isSome_of_hexValue? (Text.hexValue?_hexDigits _) c mem
    refine ⟨Text.isBlank_of_hexDigit? digit, ?_⟩
    rintro rfl
    cases digit
  piece := by simp [piece?, Text.hexNumber?_hexDigits, word.isLt]

theorem foldlM_pieces {words : List (List Char)} {us : List Usage} (h : words.Forall₂ Reads us) :
    words.foldlM (fun u word => (piece? word).map u.union) v = some (us.foldl union v) := by
  induction h generalizing v
  case nil => rfl
  case cons first _ hi => simp [first.piece, hi]

-- Words that are joined by bars are read one by one, and add up.
theorem parse?_intercalate {pieces : List String} {us : List Usage}
    (h : (pieces.map String.toList).Forall₂ Reads us) :
    parse? (String.intercalate " | " pieces) = some (us.foldl union empty) := by
  have words : ∀ word ∈ pieces.map String.toList, Text.IsWord '|' word := by
    intro word mem
    have ⟨u, _, reads⟩ := exists_right_of_mem h mem
    exact reads.isWord
  have joined : (String.intercalate " | " pieces).toList =
      [] ++ [' ', '|', ' '].intercalate (pieces.map String.toList) := String.toList_intercalate
  simp only [parse?, joined]
  generalize pieces.map String.toList = list at h words
  cases list
  case nil =>
    cases h
    rfl
  case cons word list =>
    have cut : (Text.cutAt '|' ([] ++ [' ', '|', ' '].intercalate (word :: list))).map Text.trim =
        word :: list :=
      Text.map_trim_cutAt (List.cons_ne_nil word list) rfl words nofun
    have blank : Text.trim ([] ++ [' ', '|', ' '].intercalate (word :: list)) ≠ [] := by
      have first := words word List.mem_cons_self
      cases list
      case nil =>
        have solid : Text.trim (word ++ []) ≠ [] := Text.trim_ne_nil first
        simpa using solid
      case cons =>
        rw [List.nil_append, List.intercalate_cons_cons, List.append_assoc]
        exact Text.trim_ne_nil first
    rw [if_neg (by simpa using blank), ← foldlM_pieces h, ← cut, List.foldlM_map, cut]

theorem has_foldl_only (flags : List Flag) (flag : Flag) :
    ((flags.map only).foldl union v).has flag ↔ v.has flag ∨ flag ∈ flags := by
  induction flags generalizing v
  case nil => simp
  case cons hi => simp [hi, or_assoc]

theorem unnamed_foldl_only (flags : List Flag) :
    ((flags.map only).foldl union v).unnamed = v.unnamed := by
  induction flags generalizing v
  case nil => rfl
  case cons hi => simp [hi]

theorem has_unnamed (u : Usage) (flag : Flag) : (mk u.unnamed).has flag = false := by
  cases flag <;> simp [has, unnamed, Flag.position]

theorem unnamed_unnamed (u : Usage) : (mk u.unnamed).unnamed = u.unnamed := by
  simp [unnamed, BitVec.and_assoc]

-- The flags and the other bits do not meet, so they add up to the whole word.
theorem foldl_union_eq (u : Usage) :
    (((Flag.all.filter u.has).map only).foldl union empty).union ⟨u.unnamed⟩ = u := by
  refine ext_has (fun flag => ?_) ?_
  · have listed : flag ∈ Flag.all := by cases flag <;> decide
    rw [Bool.eq_iff_iff, has_union, has_unnamed, Bool.or_false, has_foldl_only]
    simp [listed]
  · simp [unnamed_foldl_only, unnamed_unnamed]

theorem parse?_text (u : Usage) : parse? u.text = some u := by
  let flags := (Flag.all.filter u.has).map only
  have named :
      (((Flag.all.filter u.has).map Flag.text).map String.toList).Forall₂ Reads flags := by
    refine List.forall₂_map_left_iff.mpr (List.forall₂_map_left_iff.mpr ?_)
    exact List.forall₂_map_right_iff.mpr (List.forall₂_same.mpr fun flag _ => reads_flag flag)
  refine Eq.trans ?_ (congrArg some (foldl_union_eq u))
  simp only [text, pieces]
  split
  case isTrue none =>
    rw [List.append_nil, parse?_intercalate named, none]
    simp [union, flags]
  case isFalse =>
    have reads := List.rel_append named (.cons (reads_word u.unnamed) .nil)
    rw [parse?_intercalate (by simpa using reads)]
    simp [flags]

end Usage
end Shading
