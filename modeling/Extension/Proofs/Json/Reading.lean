import Extension.Proofs.Entries
import Extension.Proofs.Json.Quoting

namespace Extension

namespace Json

open Reader

/-! Documents read back from their texts.

The reader finds in the text of a document the document and what follows the text, in every layout: the blank space of a
layout stands only where it is skipped.  The number of characters bounds how deep the reader has to go.
-/

/-- The documents that manifests are made of: texts, lists, and objects that have no key twice. -/
inductive IsTextual : Json → Prop
  | text (chars : List Char) : IsTextual (.text (.ofChars chars))
  | list {items : List Json} (each : ∀ item ∈ items, IsTextual item) : IsTextual (.list items)
  | dict {entries : Entries Json WideText} (distinct : entries.keys.Nodup)
      (keys : ∀ entry ∈ entries, ∃ chars, entry.1 = .ofChars chars) (values : ∀ entry ∈ entries, IsTextual entry.2) :
      IsTextual (.dict entries)

/-- The text begins as documents do. -/
def Opens (text : List Char) : Prop :=
  ∃ c rest, text = c :: rest ∧ (c = '"' ∨ c = '[' ∨ c = '{')

theorem isSpace_opener {c : Char} (opener : c = '"' ∨ c = '[' ∨ c = '{') : isSpace c = false := by
  rcases opener with rfl | rfl | rfl <;> rfl

theorem Opens.append {text : List Char} (opens : Opens text) (rest : List Char) : Opens (text ++ rest) := by
  obtain ⟨c, inner, rfl, opener⟩ := opens
  exact ⟨c, inner ++ rest, rfl, opener⟩

def IsGap (text : List Char) : Prop :=
  ∀ c ∈ text, isSpace c = true

theorem IsGap.skip {gap : List Char} (blank : IsGap gap) (rest : List Char) : skipSpaces (gap ++ rest) = skipSpaces rest :=
  List.dropWhile_append_of_pos blank

theorem skipSpaces_cons {c : Char} (kept : isSpace c = false) (rest : List Char) : skipSpaces (c :: rest) = c :: rest := by
  rw [skipSpaces, List.dropWhile_cons, kept]
  rfl

theorem Opens.skip {text : List Char} (opens : Opens text) : skipSpaces text = text := by
  obtain ⟨c, rest, rfl, opener⟩ := opens
  exact skipSpaces_cons (isSpace_opener opener) rest

theorem Opens.skip_gap {text gap : List Char} (opens : Opens text) (blank : IsGap gap) :
    skipSpaces (gap ++ text) = text := by
  rw [blank.skip, opens.skip]

theorem isGap_lineBreak (layout : Layout) (level : Nat) : IsGap (layout.lineBreak level).toList := by
  intro c member
  cases layout with
  | line => cases member
  | indented width =>
      rw [Layout.lineBreak, String.toList_ofList, List.mem_cons, List.mem_replicate] at member
      rcases member with rfl | ⟨_, rfl⟩ <;> rfl

theorem separator_spelled (layout : Layout) (level : Nat) :
    ∃ gap, (layout.separator level).toList = ',' :: gap ∧ IsGap gap := by
  cases layout with
  | line => exact ⟨[' '], by simp [Layout.separator], by simp [IsGap, isSpace]⟩
  | indented width =>
      exact ⟨_, by simp only [Layout.separator, String.toList_append]; rfl, isGap_lineBreak (.indented width) level⟩

/-- In every layout the document is read back from its text. -/
structure IsReadBack (json : Json) : Prop where
  opens : ∀ layout level, Opens (json.write layout level).toList
  reads : ∀ layout level fuel rest, (json.write layout level).toList.length ≤ fuel →
    value fuel ((json.write layout level).toList ++ rest) = .ok (json, rest)

theorem enclose_spelled (layout : Layout) (level : Nat) (left right first : String) (rest : List String) :
    (layout.enclose level left right (first :: rest)).toList =
      left.toList ++ ((layout.lineBreak (level + 1)).toList ++
        (((layout.separator (level + 1)).intercalate (first :: rest)).toList ++
          ((layout.lineBreak level).toList ++ right.toList))) := by
  simp [Layout.enclose]

/-- An entry with a key of whole characters, whose value is read back. -/
def IsEntryReadBack (entry : WideText × Json) : Prop :=
  ∃ chars value, entry = (.ofChars chars, value) ∧ value.IsReadBack

section

variable (layout : Layout) (level : Nat)

def itemsText (items : List Json) : List Char :=
  ((layout.separator level).intercalate (writeItems layout level items)).toList

def entriesText (entries : Entries Json WideText) : List Char :=
  ((layout.separator level).intercalate (writeEntries layout level entries)).toList

theorem itemsText_single (item : Json) : itemsText layout level [item] = (item.write layout level).toList := by
  simp [itemsText, writeItems]

theorem itemsText_cons (item next : Json) (rest : List Json) :
    itemsText layout level (item :: next :: rest) =
      (item.write layout level).toList ++ (layout.separator level).toList ++ itemsText layout level (next :: rest) := by
  simp [itemsText, writeItems, String.intercalate_cons_cons]

theorem write_list_nil : ((Json.list []).write layout level).toList = ['[', ']'] := by
  simp [write, writeItems, Layout.enclose]

theorem write_dict_nil : ((Json.dict []).write layout level).toList = ['{', '}'] := by
  simp [write, writeEntries, Layout.enclose]

theorem write_list (item : Json) (rest : List Json) : ((Json.list (item :: rest)).write layout level).toList =
    '[' :: ((layout.lineBreak (level + 1)).toList ++ (itemsText layout (level + 1) (item :: rest) ++
      ((layout.lineBreak level).toList ++ [']']))) := by
  rw [write, writeItems, enclose_spelled]
  rfl

variable {layout level}

theorem itemsText_opens {item : Json} {rest : List Json} (back : item.IsReadBack) :
    Opens (itemsText layout level (item :: rest)) := by
  cases rest with
  | nil => rw [itemsText_single]; exact back.opens layout level
  | cons next rest =>
      rw [itemsText_cons, List.append_assoc]
      exact (back.opens layout level).append _

/-- Items are read one by one up to the bracket. -/
theorem items_reads {item : Json} {others : List Json} (each : ∀ found ∈ item :: others, found.IsReadBack) {fuel : Nat}
    (enough : (itemsText layout level (item :: others)).length < fuel) (read : List Json) {gap : List Char}
    (blank : IsGap gap) (rest : List Char) :
    items fuel read (itemsText layout level (item :: others) ++ (gap ++ ']' :: rest)) =
      .ok (.list (read.reverse ++ item :: others), rest) := by
  induction others generalizing item fuel read with
  | nil =>
      obtain ⟨fuel, rfl⟩ := Nat.exists_eq_add_one_of_ne_zero (show fuel ≠ 0 by omega)
      rw [itemsText_single] at enough ⊢
      rw [items, (each item (List.mem_singleton_self item)).reads layout level fuel _ (by omega)]
      simp only [blank.skip, skipSpaces_cons (show isSpace ']' = false from rfl)]
      rw [List.reverse_cons]
  | cons next others ih =>
      obtain ⟨fuel, rfl⟩ := Nat.exists_eq_add_one_of_ne_zero (show fuel ≠ 0 by omega)
      obtain ⟨here, following⟩ := List.forall_mem_cons.mp each
      obtain ⟨space, separator, spaces⟩ := separator_spelled layout level
      rw [itemsText_cons, separator] at enough ⊢
      simp only [List.length_append, List.length_cons] at enough
      have opens : Opens (itemsText layout level (next :: others) ++ (gap ++ ']' :: rest)) :=
        (itemsText_opens (following next (List.mem_cons_self ..))).append _
      have inner := ih following (show _ < fuel by omega) (item :: read)
      rw [List.append_assoc, List.append_assoc, items, here.reads layout level fuel _ (by omega)]
      simp only [List.cons_append, skipSpaces_cons (show isSpace ',' = false from rfl), opens.skip_gap spaces, inner]
      rw [List.reverse_cons, List.append_assoc, List.singleton_append]

variable (layout level) in
theorem write_dict (entry : WideText × Json) (rest : Entries Json WideText) :
    ((Json.dict (entry :: rest)).write layout level).toList =
      '{' :: ((layout.lineBreak (level + 1)).toList ++ (entriesText layout (level + 1) (entry :: rest) ++
        ((layout.lineBreak level).toList ++ ['}']))) := by
  rw [write, writeEntries, enclose_spelled]
  rfl

theorem entriesText_single (key : WideText) (value : Json) : entriesText layout level [(key, value)] =
    (quoteText key).toList ++ ':' :: ' ' :: (value.write layout level).toList := by
  simp [entriesText, writeEntries]

theorem entriesText_cons (key : WideText) (value : Json) (next : WideText × Json) (rest : Entries Json WideText) :
    entriesText layout level ((key, value) :: next :: rest) =
      (quoteText key).toList ++ ':' :: ' ' :: (value.write layout level).toList ++
        (layout.separator level).toList ++ entriesText layout level (next :: rest) := by
  simp [entriesText, writeEntries, String.intercalate_cons_cons]

theorem entriesText_opens {chars : List Char} {value : Json} {rest : Entries Json WideText} :
    Opens (entriesText layout level ((.ofChars chars, value) :: rest)) := by
  have quoted : Opens (quoteText (.ofChars chars)).toList :=
    ⟨'"', _, toList_quoteText chars, .inl rfl⟩
  cases rest with
  | nil => rw [entriesText_single]; exact quoted.append _
  | cons next rest =>
      rw [entriesText_cons, List.append_assoc, List.append_assoc]
      exact quoted.append _

/-- One entry is read, and the sign behind it decides how it goes on. -/
theorem entry_reads (chars : List Char) {value : Json} (here : value.IsReadBack) {fuel : Nat}
    (enough : (value.write layout level).toList.length ≤ fuel) (read : Entries Json WideText) {behind rest : List Char} :
    let text := (quoteText (.ofChars chars)).toList ++ ':' :: ' ' :: (value.write layout level).toList ++ behind
    (skipSpaces behind = '}' :: rest →
      entries (fuel + 1) read text = .ok (.dict (read.put (.ofChars chars) value), rest)) ∧
    (skipSpaces behind = ',' :: rest →
      entries (fuel + 1) read text = entries fuel (read.put (.ofChars chars) value) (skipSpaces rest)) := by
  obtain ⟨inner, spelled, unquotes⟩ := string_quoteText chars
  have opens := (here.opens layout level).append behind
  have blank : IsGap [' '] := by simp [IsGap, isSpace]
  have spaced : skipSpaces (' ' :: ((value.write layout level).toList ++ behind)) =
      (value.write layout level).toList ++ behind := opens.skip_gap blank
  rw [spelled, List.cons_append, List.cons_append, List.append_assoc]
  constructor <;> intro follows <;> rw [entries, unquotes] <;>
    simp only [List.cons_append, skipSpaces_cons (show isSpace ':' = false from rfl), spaced,
      here.reads layout level fuel _ enough, follows]

/-- Entries are read one by one up to the brace.  Their keys are new, so that they stay in their order. -/
theorem entries_reads {entry : WideText × Json} {others : Entries Json WideText}
    (each : ∀ found ∈ entry :: others, IsEntryReadBack found) {fuel : Nat}
    (enough : (entriesText layout level (entry :: others)).length < fuel) {read : Entries Json WideText}
    (distinct : (read ++ entry :: others).keys.Nodup) {gap : List Char} (blank : IsGap gap) (rest : List Char) :
    entries fuel read (entriesText layout level (entry :: others) ++ (gap ++ '}' :: rest)) =
      .ok (.dict (read ++ entry :: others), rest) := by
  induction others generalizing entry fuel read with
  | nil =>
      obtain ⟨fuel, rfl⟩ := Nat.exists_eq_add_one_of_ne_zero (show fuel ≠ 0 by omega)
      obtain ⟨chars, value, rfl, here⟩ := each entry (List.mem_singleton_self entry)
      rw [entriesText_single] at enough ⊢
      simp only [List.length_append, List.length_cons] at enough
      have follows : skipSpaces (gap ++ '}' :: rest) = '}' :: rest := by
        rw [blank.skip, skipSpaces_cons (show isSpace '}' = false from rfl)]
      rw [(entry_reads chars here (by omega) read).1 follows, Entries.put_of_not_mem (Entries.not_mem_keys distinct)]
  | cons next others ih =>
      obtain ⟨fuel, rfl⟩ := Nat.exists_eq_add_one_of_ne_zero (show fuel ≠ 0 by omega)
      obtain ⟨⟨chars, value, rfl, here⟩, following⟩ := List.forall_mem_cons.mp each
      obtain ⟨nextChars, nextValue, rfl, _⟩ := following next (List.mem_cons_self ..)
      obtain ⟨space, separator, spaces⟩ := separator_spelled layout level
      rw [entriesText_cons, separator] at enough ⊢
      simp only [List.length_append, List.length_cons] at enough
      have opens : Opens (entriesText layout level ((.ofChars nextChars, nextValue) :: others) ++ (gap ++ '}' :: rest)) :=
        entriesText_opens.append _
      have extended : (read ++ [(WideText.ofChars chars, value)] ++
          (WideText.ofChars nextChars, nextValue) :: others).keys.Nodup := by
        rwa [List.append_assoc]
      have inner := ih following (show _ < fuel by omega) extended
      rw [List.append_assoc, List.append_assoc, List.cons_append,
        (entry_reads chars here (by omega) read).2 (skipSpaces_cons (show isSpace ',' = false from rfl) _),
        opens.skip_gap spaces, Entries.put_of_not_mem (Entries.not_mem_keys distinct), inner, List.append_assoc,
        List.singleton_append]

end

theorem isReadBack_text (chars : List Char) : (Json.text (.ofChars chars)).IsReadBack := by
  obtain ⟨inner, spelled, unquotes⟩ := string_quoteText chars
  constructor
  · intro layout level
    rw [write]
    exact ⟨'"', inner, spelled, .inl rfl⟩
  · intro layout level fuel rest enough
    rw [write, spelled] at enough ⊢
    rw [List.length_cons] at enough
    obtain ⟨fuel, rfl⟩ := Nat.exists_eq_add_one_of_ne_zero (show fuel ≠ 0 by omega)
    rw [List.cons_append, value, unquotes]

theorem isReadBack_list {items : List Json} (each : ∀ item ∈ items, item.IsReadBack) : (Json.list items).IsReadBack := by
  cases items with
  | nil =>
      constructor
      · intro layout level
        exact ⟨'[', [']'], write_list_nil .., .inr (.inl rfl)⟩
      · intro layout level fuel rest enough
        rw [write_list_nil] at enough ⊢
        rw [List.length_cons] at enough
        obtain ⟨fuel, rfl⟩ := Nat.exists_eq_add_one_of_ne_zero (show fuel ≠ 0 by omega)
        rfl
  | cons item others =>
      constructor
      · intro layout level
        exact ⟨'[', _, write_list .., .inr (.inl rfl)⟩
      · intro layout level fuel rest enough
        rw [write_list] at enough ⊢
        simp only [List.length_cons, List.length_append] at enough
        obtain ⟨fuel, rfl⟩ := Nat.exists_eq_add_one_of_ne_zero (show fuel ≠ 0 by omega)
        have inner := items_reads each (show (itemsText layout (level + 1) (item :: others)).length < fuel by omega) []
          (isGap_lineBreak layout level) rest
        have opens : Opens (itemsText layout (level + 1) (item :: others) ++
            ((layout.lineBreak level).toList ++ ']' :: rest)) :=
          (itemsText_opens (each item (List.mem_cons_self ..))).append _
        have skipped := opens.skip_gap (isGap_lineBreak layout (level + 1))
        obtain ⟨c, tail, begins, opener⟩ := opens
        simp only [List.cons_append, List.append_assoc, List.nil_append]
        rw [value, skipped, begins]
        split
        · -- no item begins with the bracket that closes an empty list
          rename_i same
          cases same
          exact absurd opener (by decide)
        · rw [← begins, inner, List.reverse_nil, List.nil_append]

theorem isReadBack_dict {entries : Entries Json WideText} (distinct : entries.keys.Nodup)
    (each : ∀ entry ∈ entries, IsEntryReadBack entry) : (Json.dict entries).IsReadBack := by
  cases entries with
  | nil =>
      constructor
      · intro layout level
        exact ⟨'{', ['}'], write_dict_nil .., .inr (.inr rfl)⟩
      · intro layout level fuel rest enough
        rw [write_dict_nil] at enough ⊢
        rw [List.length_cons] at enough
        obtain ⟨fuel, rfl⟩ := Nat.exists_eq_add_one_of_ne_zero (show fuel ≠ 0 by omega)
        rfl
  | cons entry others =>
      constructor
      · intro layout level
        exact ⟨'{', _, write_dict .., .inr (.inr rfl)⟩
      · intro layout level fuel rest enough
        rw [write_dict] at enough ⊢
        simp only [List.length_cons, List.length_append] at enough
        obtain ⟨fuel, rfl⟩ := Nat.exists_eq_add_one_of_ne_zero (show fuel ≠ 0 by omega)
        have inner := entries_reads each (show (entriesText layout (level + 1) (entry :: others)).length < fuel by omega)
          (show (Entries.keys ([] ++ entry :: others)).Nodup from distinct) (isGap_lineBreak layout level) rest
        have opens : Opens (entriesText layout (level + 1) (entry :: others) ++
            ((layout.lineBreak level).toList ++ '}' :: rest)) := by
          obtain ⟨chars, value, rfl, _⟩ := each entry (List.mem_cons_self ..)
          exact entriesText_opens.append _
        have skipped := opens.skip_gap (isGap_lineBreak layout (level + 1))
        obtain ⟨c, tail, begins, opener⟩ := opens
        simp only [List.cons_append, List.append_assoc, List.nil_append]
        rw [value, skipped, begins]
        split
        · -- nor does a key begin with the brace
          rename_i same
          cases same
          exact absurd opener (by decide)
        · rw [← begins, inner, List.nil_append]

/-- Every textual document is read back, by induction on it. -/
theorem IsTextual.isReadBack {json : Json} (textual : json.IsTextual) : json.IsReadBack := by
  induction textual with
  | text chars => exact isReadBack_text chars
  | list _ ih => exact isReadBack_list ih
  | dict distinct keys _ ih =>
      refine isReadBack_dict distinct fun entry member => ?_
      obtain ⟨chars, named⟩ := keys entry member
      exact ⟨chars, entry.2, by rw [← named], ih entry member⟩

/-- A textual document is read from its text in any layout. -/
theorem parse_write {json : Json} (textual : json.IsTextual) (layout : Layout) :
    parse (json.write layout 0) = .ok json := by
  have back := textual.isReadBack
  have whole := back.reads layout 0 ((json.write layout 0).toList.length + 1) [] (by omega)
  have opens := back.opens layout 0
  have unmarked (rest : List Char) : (json.write layout 0).toList ≠ '\ufeff' :: rest := by
    intro marked
    obtain ⟨c, rest, spelled, opener⟩ := opens
    rw [spelled, List.cons.injEq] at marked
    rw [marked.1] at opener
    exact absurd opener (by decide)
  rw [List.append_nil] at whole
  rw [parse, document, opens.skip, whole]
  · rfl
  · exact unmarked

end Json

end Extension
