import Mathlib.Data.List.DropRight
import SoundDesk.Control.Ranking

/-!
# Proofs/Scans — the scan back over a text, in characters and in bytes

    before · word · gap · last           last: behind the last space    gap: the spaces before that
           ▲
           └ the scan ends here, or on the space that `before` ends with

Every text can be read from its end in this way (`Ranking.exists_tail`), and a scan ends where the word before the last
one begins (`Ranking.Tail.scan?_eq`).  The bytes of a text are read from their end as its characters are
(`Ranking.Tail.map_bytes`), for a space is one byte and no other character has this byte in it.  So a scan over the
bytes ends where a character begins.
-/

namespace SoundDesk.Ranking

variable {α : Type} {p isSpace : α → Bool}

/-! ## Steps back -/

theorem stepBack_of_not {c : α} {rest : List α} (h : p c = false) : stepBack p (c :: rest) = c :: rest := by
  cases rest with
  | nil => rfl
  | cons d rest => rw [stepBack, h]; rfl

/-- Stepping back passes over all that it looks for. -/
theorem stepBack_append {a b : List α} (h : ∀ c ∈ a, p c = true) (hb : b ≠ []) :
    stepBack p (a ++ b) = stepBack p b := by
  induction a with
  | nil => rfl
  | cons c a ih =>
    obtain ⟨hc, ha⟩ := List.forall_mem_cons.mp h
    obtain ⟨d, rest, hrest⟩ := List.exists_cons_of_ne_nil (List.append_ne_nil_of_right_ne_nil a hb)
    rw [List.cons_append, hrest, stepBack, if_pos hc, ← hrest, ih ha]

/-- And stops at once where there is none of it. -/
theorem stepBack_of_forall_not {a b : List α} (h : ∀ c ∈ a, p c = false) (ha : a ≠ []) :
    stepBack p (a ++ b) = a ++ b := by
  obtain ⟨c, rest, rfl⟩ := List.exists_cons_of_ne_nil ha
  exact stepBack_of_not (h c List.mem_cons_self)

theorem length_stepBack_le (l : List α) : (stepBack p l).length ≤ l.length := by
  induction l using stepBack.induct p with
  | case1 c d rest hc ih => rw [stepBack, if_pos hc]; exact ih.trans (Nat.le_succ _)
  | case2 c d rest hc => rw [stepBack, if_neg hc]
  | case3 short hshort => rw [stepBack]; exact hshort

/-- Where every entry has the property, the first one is left. -/
theorem length_stepBack_of_forall {l : List α} (h : ∀ c ∈ l, p c = true) : (stepBack p l).length ≤ 1 := by
  induction l using stepBack.induct p with
  | case1 c d rest hc ih => rw [stepBack, if_pos hc]; exact ih (List.forall_mem_cons.mp h).2
  | case2 c d rest hc => exact absurd (List.forall_mem_cons.mp h).1 hc
  | case3 short hshort =>
    match short, hshort with
    | [], _ => exact Nat.zero_le _
    | [c], _ => exact le_rfl
    | c :: d :: rest, hshort => exact absurd rfl (hshort c d rest)

/-! ## A text read from its end -/

/-- **A text read from its end**: what is behind the last space, the spaces before it, the word before those, and
what is left, up to a space. -/
structure Tail (isSpace : α → Bool) (text before word gap last : List α) : Prop where
  eq : text = before ++ (word ++ (gap ++ last))
  last_plain : ∀ c ∈ last, isSpace c = false
  gap_blank : ∀ c ∈ gap, isSpace c = true
  word_plain : ∀ c ∈ word, isSpace c = false
  word_eq_nil : gap = [] → word = []
  before_eq_nil : word = [] → before = []
  before_ends : before ≠ [] → ∃ rest space, before = rest ++ [space] ∧ isSpace space = true

/-- What is left of a list when its last entries with a property are taken ends with an entry without it. -/
theorem exists_concat_rdropWhile {l : List α} (h : l.rdropWhile p ≠ []) :
    ∃ rest c, l.rdropWhile p = rest ++ [c] ∧ p c = false :=
  ⟨_, _, (List.dropLast_append_getLast h).symm, by simpa using List.rdropWhile_last_not p l h⟩

/-- After entries without a property were taken from the end, some with it follow, unless nothing is left. -/
theorem rdropWhile_eq_nil_of_rtakeWhile {l : List α} {q : α → Bool} (hq : ∀ c, p c = false → q c = true)
    (h : (l.rdropWhile p).rtakeWhile q = []) : l.rdropWhile p = [] := by
  by_contra hne
  obtain ⟨rest, c, hlast, hc⟩ := exists_concat_rdropWhile hne
  rw [hlast, List.rtakeWhile_concat_pos _ _ _ (hq c hc)] at h
  exact List.append_ne_nil_of_right_ne_nil _ (List.cons_ne_nil c []) h

/-- **Every text has a tail**: what the scan finds when it reads from the end. -/
theorem exists_tail (isSpace : α → Bool) (text : List α) :
    ∃ before word gap last, Tail isSpace text before word gap last := by
  let front := text.rdropWhile fun c => !isSpace c
  let words := front.rdropWhile isSpace
  have htext : text = front ++ text.rtakeWhile fun c => !isSpace c := List.rdropWhile_append_rtakeWhile.symm
  have hfront : front = words ++ front.rtakeWhile isSpace := List.rdropWhile_append_rtakeWhile.symm
  have hwords : words = (words.rdropWhile fun c => !isSpace c) ++ words.rtakeWhile fun c => !isSpace c :=
    List.rdropWhile_append_rtakeWhile.symm
  refine ⟨words.rdropWhile fun c => !isSpace c, words.rtakeWhile fun c => !isSpace c, front.rtakeWhile isSpace,
    text.rtakeWhile fun c => !isSpace c, ?_⟩
  exact {
    eq := by rw [← List.append_assoc, ← hwords, ← List.append_assoc, ← hfront, ← htext]
    last_plain := fun c hc => by simpa using List.mem_rtakeWhile_imp hc
    gap_blank := fun c hc => List.mem_rtakeWhile_imp hc
    word_plain := fun c hc => by simpa using List.mem_rtakeWhile_imp hc
    word_eq_nil := fun hgap => by
      have hnone : front = [] := rdropWhile_eq_nil_of_rtakeWhile (by simp) hgap
      simp [words, hnone]
    before_eq_nil := fun hword => by
      have hnone : words = [] := rdropWhile_eq_nil_of_rtakeWhile (by simp) hword
      simp [hnone]
    before_ends := fun hne => by
      obtain ⟨rest, c, hlast, hc⟩ := exists_concat_rdropWhile hne
      exact ⟨rest, c, hlast, by simpa using hc⟩ }

namespace Tail

variable {text before word gap last : List α}

/-- If anything stands before the word, two places at least come before the gap. -/
theorem length_before_append (h : Tail isSpace text before word gap last) (hne : before ≠ []) :
    1 < (before ++ word).length := by
  have := List.length_pos_of_ne_nil hne
  have := List.length_pos_of_ne_nil (mt h.before_eq_nil hne)
  rw [List.length_append]
  omega

theorem last_reverse (h : Tail isSpace text before word gap last) : ∀ c ∈ last.reverse, (!isSpace c) = true :=
  fun c hc => by rw [h.last_plain c (List.mem_reverse.mp hc)]; rfl

theorem gap_reverse (h : Tail isSpace text before word gap last) : ∀ c ∈ gap.reverse, isSpace c = true :=
  fun c hc => h.gap_blank c (List.mem_reverse.mp hc)

theorem word_reverse (h : Tail isSpace text before word gap last) : ∀ c ∈ word.reverse, isSpace c = false :=
  fun c hc => h.word_plain c (List.mem_reverse.mp hc)

/-- The first two steps of a scan leave the word and what is before it. -/
theorem stepBack_stepBack (h : Tail isSpace text before word gap last) (hne : word ≠ []) :
    stepBack isSpace (stepBack (fun c => !isSpace c) text.reverse) = word.reverse ++ before.reverse := by
  have hgap_ne : gap.reverse ≠ [] := fun hnil => hne (h.word_eq_nil (List.reverse_eq_nil_iff.mp hnil))
  have hword_ne : word.reverse ≠ [] := fun hnil => hne (List.reverse_eq_nil_iff.mp hnil)
  calc stepBack isSpace (stepBack (fun c => !isSpace c) text.reverse)
      = stepBack isSpace (stepBack (fun c => !isSpace c)
          (last.reverse ++ (gap.reverse ++ (word.reverse ++ before.reverse)))) := by rw [h.eq]; simp
    _ = stepBack isSpace (gap.reverse ++ (word.reverse ++ before.reverse)) := by
        rw [stepBack_append h.last_reverse (List.append_ne_nil_of_left_ne_nil hgap_ne _),
          stepBack_of_forall_not (fun c hc => by simp [h.gap_reverse c hc]) hgap_ne]
    _ = word.reverse ++ before.reverse := by
        rw [stepBack_append h.gap_reverse (List.append_ne_nil_of_left_ne_nil hword_ne _),
          stepBack_of_forall_not h.word_reverse hword_ne]

/-- Where no word stands before the last one, they leave one entry at most. -/
theorem length_stepBack_stepBack (h : Tail isSpace text before [] gap last) :
    (stepBack isSpace (stepBack (fun c => !isSpace c) text.reverse)).length ≤ 1 := by
  have htext : text.reverse = last.reverse ++ gap.reverse := by rw [h.eq, h.before_eq_nil rfl]; simp
  by_cases hnone : gap.reverse = []
  · rw [htext, hnone, List.append_nil]
    exact (length_stepBack_le _).trans (length_stepBack_of_forall h.last_reverse)
  · rw [htext, stepBack_append h.last_reverse hnone, ← List.append_nil gap.reverse,
      stepBack_of_forall_not (fun c hc => by simp [h.gap_reverse c hc]) hnone, List.append_nil]
    exact length_stepBack_of_forall h.gap_reverse

/-- **Where a scan ends**: where the word begins, or at the space before it. -/
theorem scan?_eq (h : Tail isSpace text before word gap last) :
    scan? isSpace text = if (before ++ word).length ≤ 1 then none else some (before.length - 1) := by
  obtain rfl | hne := eq_or_ne word []
  · have hbefore := h.before_eq_nil rfl
    rw [scan?, if_pos (h.length_stepBack_stepBack), if_pos (by simp [hbefore])]
  have hword : ∀ c ∈ word.reverse, (!isSpace c) = true := fun c hc => by rw [h.word_reverse c hc]; rfl
  rw [scan?, h.stepBack_stepBack hne, ← List.reverse_append, List.length_reverse]
  refine if_congr Iff.rfl rfl (congrArg some ?_)
  rw [List.reverse_append]
  obtain rfl | hbefore := eq_or_ne before []
  · -- The word is at the front, and the last step ends at its first entry.
    have := length_stepBack_of_forall hword
    simpa using Nat.sub_eq_zero_of_le this
  · obtain ⟨rest, space, rfl, hspace⟩ := h.before_ends hbefore
    rw [stepBack_append hword (by simp), List.reverse_append, List.reverse_singleton, List.singleton_append,
      stepBack_of_not (by simp [hspace])]
    simp

end Tail

/-! ## The bytes of a text -/

/-- The bytes of a text. -/
def bytes (text : List Char) : List UInt8 := text.flatMap String.utf8EncodeChar

@[simp] theorem bytes_nil : bytes [] = [] := rfl

@[simp] theorem bytes_append (a b : List Char) : bytes (a ++ b) = bytes a ++ bytes b := List.flatMap_append

theorem bytes_singleton (c : Char) : bytes [c] = String.utf8EncodeChar c := List.flatMap_singleton ..

/-- A character takes as many bytes as its width. -/
theorem length_bytes_cons (c : Char) (text : List Char) :
    (bytes (c :: text)).length = c.utf8Size + (bytes text).length := by
  rw [bytes, List.flatMap_cons, List.length_append, String.length_utf8EncodeChar, bytes]

theorem length_le_length_bytes (text : List Char) : text.length ≤ (bytes text).length := by
  induction text with
  | nil => exact Nat.zero_le _
  | cons c text ih =>
    have := c.utf8Size_pos
    rw [List.length_cons, length_bytes_cons]
    omega

theorem bytes_eq_nil {text : List Char} : bytes text = [] ↔ text = [] :=
  ⟨fun h => List.length_eq_zero_iff.mp (by simpa [h] using length_le_length_bytes text), fun h => h ▸ rfl⟩

/-- A space is one byte, and no other character has this byte in it. -/
theorem space_mem_encode (c : Char) : (32 : UInt8) ∈ String.utf8EncodeChar c ↔ c = ' ' := by
  constructor
  · intro h
    suffices c.val.toNat = 32 from Char.ext (UInt32.toNat_inj.mp this)
    simp only [String.utf8EncodeChar] at h
    generalize c.val.toNat = v at h ⊢
    split_ifs at h <;> simp [← UInt8.toNat_inj] at h <;> omega
  · rintro rfl; decide

/-- No character but the space has the byte of the space. -/
theorem bytes_plain {text : List Char} (h : ∀ c ∈ text, decide (c = ' ') = false) :
    ∀ b ∈ bytes text, decide (b = 32) = false := by
  intro b hb
  obtain ⟨c, hc, hbc⟩ := List.mem_flatMap.mp hb
  refine decide_eq_false ?_
  rintro rfl
  exact of_decide_eq_false (h c hc) ((space_mem_encode c).mp hbc)

/-- A gap of spaces is a gap of their bytes. -/
theorem bytes_blank {text : List Char} (h : ∀ c ∈ text, decide (c = ' ') = true) :
    ∀ b ∈ bytes text, decide (b = 32) = true := by
  intro b hb
  obtain ⟨c, hc, hbc⟩ := List.mem_flatMap.mp hb
  rw [of_decide_eq_true (h c hc)] at hbc
  exact decide_eq_true (List.mem_singleton.mp hbc)

/-- The bytes of a text are read from their end as its characters are. -/
theorem Tail.map_bytes {text before word gap last : List Char} (h : Tail (· = ' ') text before word gap last) :
    Tail (· = 32) (bytes text) (bytes before) (bytes word) (bytes gap) (bytes last) where
  eq := by rw [h.eq, bytes_append, bytes_append, bytes_append]
  last_plain := bytes_plain h.last_plain
  gap_blank := bytes_blank h.gap_blank
  word_plain := bytes_plain h.word_plain
  word_eq_nil hgap := bytes_eq_nil.mpr (h.word_eq_nil (bytes_eq_nil.mp hgap))
  before_eq_nil hword := bytes_eq_nil.mpr (h.before_eq_nil (bytes_eq_nil.mp hword))
  before_ends hne := by
    obtain ⟨rest, space, rfl, hspace⟩ := h.before_ends (mt bytes_eq_nil.mpr hne)
    refine ⟨bytes rest, 32, ?_, rfl⟩
    rw [of_decide_eq_true hspace, bytes_append, bytes_singleton]
    rfl

/-- Where a scan ends is in front of a character, and where something is before the word it is in front of a space. -/
theorem Tail.exists_window {text before word gap last : List Char} (h : Tail (· = ' ') text before word gap last) :
    ∃ front window, text = front ++ window ∧ before.length - 1 = front.length ∧
      (bytes before).length - 1 = (bytes front).length ∧
      (before = [] → front = []) ∧ (before ≠ [] → ∃ rest, window = ' ' :: rest) := by
  obtain rfl | hne := eq_or_ne before []
  · exact ⟨[], text, rfl, rfl, rfl, fun _ => rfl, fun h => absurd rfl h⟩
  obtain ⟨front, space, rfl, hspace⟩ := h.before_ends hne
  rw [of_decide_eq_true hspace] at h hne ⊢
  refine ⟨front, ' ' :: (word ++ (gap ++ last)), by rw [h.eq]; simp, by simp, ?_, fun h => absurd h hne,
    fun _ => ⟨_, rfl⟩⟩
  rw [bytes_append, List.length_append]
  rfl

/-- The text from a byte on.  There is none where this byte is inside a character. -/
def fromByte? : List Char → (start : Nat) → Option (List Char)
  | text, 0 => some text
  | [], _ + 1 => none
  | c :: text, start + 1 => if c.utf8Size ≤ start + 1 then fromByte? text (start + 1 - c.utf8Size) else none

/-- **What begins at a whole character** is found by the number of bytes before it. -/
theorem fromByte?_append (before window : List Char) :
    fromByte? (before ++ window) (bytes before).length = some window := by
  induction before with
  | nil => rw [List.nil_append, bytes_nil, List.length_nil, fromByte?]
  | cons c before ih =>
    have hsize := c.utf8Size_pos
    obtain ⟨n, hn⟩ : ∃ n, c.utf8Size + (bytes before).length = n + 1 := ⟨_, (Nat.succ_pred (by omega)).symm⟩
    rw [length_bytes_cons, hn, List.cons_append, fromByte?, ← hn, if_pos (Nat.le_add_right ..),
      Nat.add_sub_cancel_left, ih]

end SoundDesk.Ranking
