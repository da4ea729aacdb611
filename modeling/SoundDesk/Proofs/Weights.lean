import SoundDesk.Proofs.Orders
import SoundDesk.Proofs.Scans

/-!
# Proofs/Weights — the weight of every name

    name      =  category · ␣? · remainder          p · 1000000 + 1  +  the detail of the remainder
    remainder =  word                                m + 1           for its modifier
              |  letter ␣ word                       m + 1           for its modifier
              |  word ␣ word                         q · 1000 + 1    for its role, and m + 1 for the modifier behind it
              |  three words or more                 0

The first entry of a table that begins a text counts (`Ranking.Begins`), which decides between `Capture` and
`Capture Source`.  A detail is never greater than 10009 (`Ranking.detail_le`), so the category decides first.
-/

namespace SoundDesk.Ranking

/-! ## The entry of a table that begins a text -/

/-- No entry of the table begins the text. -/
def Misses (table : List String) (text : List Char) : Prop := ∀ entry ∈ table, ¬ entry.toList <+: text

/-- **The first entry that begins the text** is the one at `position`, and `rest` is behind it. -/
structure Begins (table : List String) (text : List Char) (position : Nat) (rest : List Char) : Prop where
  entry : ∃ entry, table[position]? = some entry ∧ text = entry.toList ++ rest
  first : Misses (table.take position) text

variable {table : List String} {text rest : List Char} {position : Nat}

/-- What is left behind an entry is the rest of the text. -/
theorem after?_eq_some_iff {entry : List Char} : after? entry text = some rest ↔ text = entry ++ rest := by
  induction entry generalizing text with
  | nil => simp [after?]
  | cons e entry ih =>
    cases text with
    | nil => simp [after?]
    | cons c text =>
      by_cases h : e = c
      · simp [after?, h, ih]
      · simp [after?, h, Ne.symm h]

theorem after?_eq_none_iff {entry : List Char} : after? entry text = none ↔ ¬ entry <+: text := by
  rw [Option.eq_none_iff_forall_ne_some]
  exact ⟨fun h ⟨rest, he⟩ => h rest (after?_eq_some_iff.mpr he.symm),
    fun h rest he => h ⟨rest, (after?_eq_some_iff.mp he).symm⟩⟩

/-- A table that misses matches nothing. -/
theorem Misses.match?_eq (h : Misses table text) (k : Nat) : match? table k text = none := by
  induction table generalizing k with
  | nil => rfl
  | cons entry table ih =>
    obtain ⟨hentry, htable⟩ := List.forall_mem_cons.mp h
    rw [match?, after?_eq_none_iff.mpr hentry]
    exact ih htable (k + 1)

/-- **The first entry that begins a text is matched**, at its position and with what stands behind it. -/
theorem Begins.match?_eq (h : Begins table text position rest) (k : Nat) :
    match? table k text = some (k + position, dropSpace rest) := by
  induction position generalizing table k with
  | zero =>
    obtain ⟨entry, hentry, htext⟩ := h.entry
    obtain ⟨tail, rfl⟩ : ∃ tail, table = entry :: tail := by
      cases table with
      | nil => cases hentry
      | cons e tail => exact ⟨tail, by cases hentry; rfl⟩
    rw [match?, after?_eq_some_iff.mpr htext]
    rfl
  | succ position ih =>
    obtain ⟨entry, hentry, htext⟩ := h.entry
    cases table with
    | nil => cases hentry
    | cons e tail =>
      obtain ⟨he, htail⟩ := List.forall_mem_cons.mp h.first
      rw [match?, after?_eq_none_iff.mpr he]
      refine (ih ⟨⟨entry, hentry, htext⟩, htail⟩ (k + 1)).trans ?_
      rw [Nat.add_right_comm, Nat.add_assoc]

/-- A text misses a table, or an entry of it is the first that begins the text. -/
theorem misses_or_begins (table : List String) (text : List Char) :
    Misses table text ∨ ∃ position rest, Begins table text position rest := by
  induction table with
  | nil => exact .inl fun _ h => nomatch h
  | cons entry table ih =>
    by_cases h : entry.toList <+: text
    · obtain ⟨rest, hrest⟩ := h
      exact .inr ⟨0, rest, ⟨entry, rfl, hrest.symm⟩, fun _ h => nomatch h⟩
    obtain hmiss | ⟨position, rest, hbegins⟩ := ih
    · exact .inl (List.forall_mem_cons.mpr ⟨h, hmiss⟩)
    · exact .inr ⟨position + 1, rest, hbegins.entry, List.forall_mem_cons.mpr ⟨h, hbegins.first⟩⟩

theorem Begins.lt_length (h : Begins table text position rest) : position < table.length := by
  obtain ⟨entry, hentry, -⟩ := h.entry
  exact (List.getElem?_eq_some_iff.mp hentry).1

/-- A text whose first character no entry can begin with misses the table. -/
theorem misses_cons {p : Char → Bool} {c : Char} (h : ∀ entry ∈ table, entry.toList.head?.any p) (hc : p c = false) :
    Misses table (c :: text) := by
  rintro entry hentry ⟨rest, hrest⟩
  have hfirst := h entry hentry
  cases hlist : entry.toList with
  | nil => rw [hlist] at hfirst; cases hfirst
  | cons e tail =>
    rw [hlist, List.cons_append, List.cons.injEq] at hrest
    rw [hlist, hrest.1, List.head?_cons, Option.any_some, hc] at hfirst
    cases hfirst

/-- A table begins a text or misses it, never both. -/
theorem Begins.not_misses (h : Begins table text position rest) : ¬ Misses table text := by
  obtain ⟨entry, hentry, htext⟩ := h.entry
  exact fun hmiss => hmiss entry (List.mem_of_getElem? hentry) ⟨rest, htext.symm⟩

/-! ## Modifiers and roles -/

/-- **The amount of a modifier**: one more than the position of the first modifier that begins the text, or 0. -/
inductive ModifierAmount (text : List Char) : Nat → Prop
  | missing : Misses modifiers text → ModifierAmount text 0
  | found {m rest} : Begins modifiers text m rest → ModifierAmount text (m + 1)

/-- **The amount of a role** with the modifier behind it and one optional space, or 0. -/
inductive RoleAmount (text : List Char) : Nat → Prop
  | missing : Misses roles text → RoleAmount text 0
  | found {q rest m} : Begins roles text q rest → ModifierAmount (dropSpace rest) m → RoleAmount text (q * 1000 + 1 + m)

/-- The weight of a modifier is told by the table of modifiers. -/
theorem modifierAmount (text : List Char) : ModifierAmount text (modifierWeight text) := by
  rw [modifierWeight]
  obtain h | ⟨m, rest, h⟩ := misses_or_begins modifiers text
  · rw [h.match?_eq]; exact .missing h
  · rw [h.match?_eq, Nat.zero_add]; exact .found h

/-- The weight of a role is told by the table of roles, and by what stands behind the match. -/
theorem roleAmount (text : List Char) : RoleAmount text (roleWeight text) := by
  rw [roleWeight]
  obtain h | ⟨q, rest, h⟩ := misses_or_begins roles text
  · rw [h.match?_eq]; exact .missing h
  · rw [h.match?_eq, Nat.zero_add]; exact .found h (modifierAmount _)

theorem ModifierAmount.le {m : Nat} (h : ModifierAmount text m) : m ≤ 8 := by
  cases h with
  | missing => exact Nat.zero_le _
  | found h => exact h.lt_length

/-- No role weighs more than the last one with the last modifier. -/
theorem RoleAmount.le {amount : Nat} (h : RoleAmount text amount) : amount ≤ 10009 := by
  cases h with
  | missing => exact Nat.zero_le _
  | @found q rest m h hm =>
    have hq : q < 11 := h.lt_length
    have := hm.le
    omega

theorem ModifierAmount.eq_zero {m : Nat} (h : ModifierAmount text m) (hmiss : Misses modifiers text) : m = 0 := by
  cases h with
  | missing => rfl
  | found h => exact absurd hmiss h.not_misses

theorem RoleAmount.eq_zero {amount : Nat} (h : RoleAmount text amount) (hmiss : Misses roles text) : amount = 0 := by
  cases h with
  | missing => rfl
  | found h => exact absurd hmiss h.not_misses

theorem misses_roles_space (text : List Char) : Misses roles (' ' :: text) :=
  misses_cons (p := (· != ' ')) (by decide) rfl

/-- No role and no modifier begins with a character of several bytes. -/
theorem misses_wide {c : Char} (h : c.utf8Size ≠ 1) (text : List Char) :
    Misses roles (c :: text) ∧ Misses modifiers (c :: text) :=
  have hc : (c.utf8Size == 1) = false := by simpa using h
  ⟨misses_cons (p := (·.utf8Size == 1)) (by decide) hc, misses_cons (p := (·.utf8Size == 1)) (by decide) hc⟩

/-! ## Words -/

/-- The words of a text, the longest runs of characters other than the space. -/
def words (text : List Char) : List (List Char) := (text.splitOn ' ').filter (· ≠ [])

/-- A single word. -/
def IsWord (text : List Char) : Prop := text ≠ [] ∧ ' ' ∉ text

/-- A space parts words, whatever stands around it. -/
theorem words_append_space (a b : List Char) : words (a ++ ' ' :: b) = words a ++ words b := by
  rw [words, List.splitOn_append_cons_self, List.filter_append, words, words]

theorem length_words_of_not_mem (h : ' ' ∉ text) : (words text).length ≤ 1 := by
  rw [words, List.splitOn_eq_singleton h]
  exact List.length_filter_le _ _

/-- Spaces at the front are in no word. -/
theorem words_blank_append {gap : List Char} (h : ∀ c ∈ gap, c = ' ') (text : List Char) :
    words (gap ++ text) = words text := by
  induction gap with
  | nil => rfl
  | cons c gap ih =>
    obtain ⟨rfl, hgap⟩ := List.forall_mem_cons.mp h
    exact (words_append_space [] (gap ++ text)).trans (ih hgap)

theorem IsWord.plain (h : IsWord text) : ∀ c ∈ text, decide (c = ' ') = false :=
  fun _ hc => decide_eq_false fun heq => h.2 (heq ▸ hc)

/-- A word alone, read from its end. -/
theorem IsWord.tail (h : IsWord text) : Tail (· = ' ') text [] [] [] text where
  eq := rfl
  last_plain := h.plain
  gap_blank _ h := nomatch h
  word_plain _ h := nomatch h
  word_eq_nil _ := rfl
  before_eq_nil _ := rfl
  before_ends h := absurd rfl h

/-- Two words with one space between them, read from their end. -/
theorem IsWord.tail_pair {u w : List Char} (hu : IsWord u) (hw : IsWord w) :
    Tail (· = ' ') (u ++ ' ' :: w) [] u [' '] w where
  eq := rfl
  last_plain := hw.plain
  gap_blank := by simp
  word_plain := hu.plain
  word_eq_nil h := nomatch h
  before_eq_nil _ := rfl
  before_ends h := absurd rfl h

/-- A text with nothing before its last two words has no other word. -/
theorem Tail.length_words {word gap last : List Char} (h : Tail (· = ' ') text [] word gap last) :
    (words text).length ≤ 2 := by
  have hlast : ' ' ∉ last := fun hc => by simpa using h.last_plain _ hc
  have hword : ' ' ∉ word := fun hc => by simpa using h.word_plain _ hc
  rw [h.eq, List.nil_append]
  cases gap with
  | nil =>
    rw [h.word_eq_nil rfl]
    exact (length_words_of_not_mem hlast).trans (Nat.le_succ 1)
  | cons space gap =>
    obtain ⟨hspace, hgap⟩ := List.forall_mem_cons.mp h.gap_blank
    rw [of_decide_eq_true hspace, List.cons_append, words_append_space,
      words_blank_append (fun c hc => of_decide_eq_true (hgap c hc)), List.length_append]
    exact Nat.add_le_add (length_words_of_not_mem hword) (length_words_of_not_mem hlast)

/-- **The detail of a remainder**, by its words. -/
structure Details (text : List Char) (amount : Nat) : Prop where
  empty : text = [] → amount = 0
  many : 3 ≤ (words text).length → amount = 0
  single : IsWord text → ModifierAmount text amount
  letter : ∀ c w, c ≠ ' ' → IsWord w → text = c :: ' ' :: w → ModifierAmount text amount
  pair : ∀ u w, 2 ≤ u.length → IsWord u → IsWord w → text = u ++ ' ' :: w → RoleAmount text amount
  le : amount ≤ 10009

/-- Where the scan finds no place, the text is weighed as a modifier. -/
theorem detail_of_scan?_eq_none (h : scan? (· = ' ') text = none) : detail text = modifierWeight text := by
  cases text with
  | nil => rfl
  | cons c text => rw [detail, h]; rfl

/-- Where it finds one, the text from there on is weighed as a role. -/
theorem detail_of_scan?_eq_some {start : Nat} (h : scan? (· = ' ') text = some start) :
    detail text = roleWeight (text.drop start) := by
  cases text with
  | nil => cases h
  | cons c text => rw [detail, h]; rfl

/-- **The detail never reaches the next category.** -/
theorem detail_le (text : List Char) : detail text ≤ 10009 := by
  cases h : scan? (· = ' ') text with
  | none => rw [detail_of_scan?_eq_none h]; exact (modifierAmount text).le.trans (by decide)
  | some start => rw [detail_of_scan?_eq_some h]; exact (roleAmount _).le

theorem details (text : List Char) : Details text (detail text) where
  empty h := by rw [h]; rfl
  many h := by
    obtain ⟨before, word, gap, last, htail⟩ := exists_tail (· = ' ') text
    obtain rfl | hbefore := eq_or_ne before []
    · exact absurd htail.length_words (by omega)
    obtain ⟨front, window, htext, hfront, -, -, hwindow⟩ := htail.exists_window
    obtain ⟨rest, hspace⟩ := hwindow hbefore
    have hscan := htail.scan?_eq
    rw [if_neg (not_le.mpr (htail.length_before_append hbefore)), hfront] at hscan
    rw [detail_of_scan?_eq_some hscan, htext, List.drop_left, hspace]
    exact (roleAmount _).eq_zero (misses_roles_space rest)
  single h := by
    rw [detail_of_scan?_eq_none h.tail.scan?_eq]
    exact modifierAmount text
  letter c w hc hw h := by
    have hword : IsWord [c] := ⟨by simp, by simpa using hc.symm⟩
    rw [h, ← List.singleton_append, detail_of_scan?_eq_none (hword.tail_pair hw).scan?_eq]
    exact modifierAmount _
  pair u w hlength hu hw h := by
    have hscan := (hu.tail_pair hw).scan?_eq
    rw [if_neg (by rw [List.nil_append]; omega)] at hscan
    rw [h, detail_of_scan?_eq_some hscan]
    exact roleAmount _
  le := detail_le text

/-! ## The same in bytes -/

/-- The detail of a text whose role is looked for from a byte on.  There is none if this byte is inside a character. -/
def detailInBytes? (text : List Char) : Option Nat :=
  if text.isEmpty then some 0
  else
    match scan? (· = 32) (bytes text) with
    | none => some (modifierWeight text)
    | some start => (fromByte? text start).map roleWeight

/-- The weight of a name whose role is looked for in its bytes. -/
def weightInBytes? (name : String) : Option Nat :=
  match match? categories 0 name.toList with
  | none => some unranked
  | some (c, follows) => (detailInBytes? follows).map (c * 1000000 + 1 + ·)

theorem detailInBytes?_of_scan?_eq_none (h : scan? (· = 32) (bytes text) = none) :
    detailInBytes? text = some (modifierWeight text) := by
  cases text with
  | nil => rfl
  | cons c text => rw [detailInBytes?, h]; rfl

/-- The scan over bytes comes to the same word, at the byte where it begins. -/
theorem detailInBytes?_of_scan?_eq_some {start : Nat} (h : scan? (· = 32) (bytes text) = some start) :
    detailInBytes? text = (fromByte? text start).map roleWeight := by
  cases text with
  | nil => cases h
  | cons c text => rw [detailInBytes?, h]; rfl

/-- **No role is looked for inside a character**, and where a character of several bytes is taken for a word it makes
no difference. -/
theorem detailInBytes?_eq (text : List Char) : detailInBytes? text = some (detail text) := by
  obtain ⟨before, word, gap, last, htail⟩ := exists_tail (· = ' ') text
  obtain ⟨front, window, htext, hchars, hbytes, hfront, -⟩ := htail.exists_window
  have hscan := htail.scan?_eq
  have hscan_bytes := htail.map_bytes.scan?_eq
  rw [← bytes_append, hbytes] at hscan_bytes
  rw [hchars] at hscan
  by_cases hfew : (bytes (before ++ word)).length ≤ 1
  · rw [if_pos ((length_le_length_bytes _).trans hfew)] at hscan
    rw [if_pos hfew] at hscan_bytes
    rw [detailInBytes?_of_scan?_eq_none hscan_bytes, detail_of_scan?_eq_none hscan]
  rw [if_neg hfew] at hscan_bytes
  rw [detailInBytes?_of_scan?_eq_some hscan_bytes, htext, fromByte?_append, Option.map_some, ← htext]
  by_cases hshort : (before ++ word).length ≤ 1
  · -- The word is one character of several bytes, which neither a role nor a modifier begins with.
    rw [if_pos hshort] at hscan
    obtain rfl : before = [] := by
      by_contra hne
      exact absurd hshort (not_le.mpr (htail.length_before_append hne))
    obtain rfl := hfront rfl
    rw [List.nil_append] at hfew hshort htext
    match word, hfew, hshort with
    | [], hfew, _ => exact absurd (Nat.zero_le 1) hfew
    | [c], hfew, _ =>
      have hwide : c.utf8Size ≠ 1 := by
        rw [bytes_singleton, String.length_utf8EncodeChar] at hfew
        omega
      obtain ⟨hroles, hmodifiers⟩ := misses_wide hwide (gap ++ last)
      have heq : text = c :: (gap ++ last) := htail.eq
      rw [detail_of_scan?_eq_none hscan, ← htext, heq, (roleAmount _).eq_zero hroles,
        (modifierAmount _).eq_zero hmodifiers]
  · rw [if_neg hshort] at hscan
    rw [detail_of_scan?_eq_some hscan, htext, List.drop_left]

/-- **Bytes and characters weigh alike**: no scan ends within a character. -/
theorem weightInBytes?_eq (name : String) : weightInBytes? name = some (weight name) := by
  cases h : match? categories 0 name.toList with
  | none => simp only [weightInBytes?, weight, h]
  | some found => simp only [weightInBytes?, weight, h, detailInBytes?_eq, Option.map_some]

/-! ## The weight of a name -/

theorem Misses.weight_eq {name : String} (h : Misses categories name.toList) : weight name = unranked := by
  rw [weight, h.match?_eq]

/-- A category counts a million, and what stands behind it is the detail. -/
theorem Begins.weight_eq {name : String} (h : Begins categories name.toList position rest) :
    weight name = position * 1000000 + 1 + detail (dropSpace rest) := by
  rw [weight, h.match?_eq, Nat.zero_add]

/-- **The weight of a name** with the category at `position` and `rest` behind it. -/
structure Ranked (name : String) (position : Nat) (rest : List Char) : Prop where
  weight_eq : weight name = position * 1000000 + 1 + detail (dropSpace rest)
  details : Details (dropSpace rest) (detail (dropSpace rest))
  ge : position * 1000000 + 1 ≤ weight name
  le : weight name ≤ position * 1000000 + 10010
  lt_unranked : weight name < unranked
  lt_later : ∀ other later tail, Begins categories other.toList later tail → position < later →
    weight name < weight other

/-- **A name that a category begins is ranked** by it, before all later categories. -/
theorem Begins.ranked {name : String} (h : Begins categories name.toList position rest) :
    Ranked name position rest where
  weight_eq := h.weight_eq
  details := SoundDesk.Ranking.details _
  ge := by rw [h.weight_eq]; omega
  le := by
    have := detail_le (dropSpace rest)
    rw [h.weight_eq]
    omega
  lt_unranked := by
    have := detail_le (dropSpace rest)
    have : position < 33 := h.lt_length
    rw [h.weight_eq, unranked]
    omega
  lt_later other later tail hother hlater := by
    have := detail_le (dropSpace rest)
    rw [h.weight_eq, hother.weight_eq]
    omega

/-- **Every name is weighed without a cut through a character**, and is unranked if no category begins it.  Otherwise
its weight is told by the first category that does and the words behind it, and comes before every weight of a later
category. -/
theorem weight_exact (name : String) :
    weightInBytes? name = some (weight name) ∧
    ((Misses categories name.toList ∧ weight name = unranked) ∨
      ∃ p rest, Begins categories name.toList p rest ∧ Ranked name p rest) := by
  refine ⟨weightInBytes?_eq name, ?_⟩
  obtain h | ⟨p, rest, h⟩ := misses_or_begins categories name.toList
  · exact .inl ⟨h, h.weight_eq⟩
  · exact .inr ⟨p, rest, h, h.ranked⟩

example : weight "Master Playback Volume" = 2004 := by decide

/-- A scan of the bytes takes the first word for one of two characters. -/
example : scan? (· = ' ') "é Volume".toList = none ∧ scan? (· = 32) (bytes "é Volume".toList) = some 0 := by decide

end SoundDesk.Ranking
