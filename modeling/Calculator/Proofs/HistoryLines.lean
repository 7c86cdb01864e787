/-
Module: Calculator.Proofs.HistoryLines
Purpose: A history file from its writer to the answer that shows it. The writer ends lines by line feeds only, and
  lets an entry hold whatever else was typed; the reader knows more characters that end a line (`Text.breaksLine`).
  What is shown of an entry is its first stretch up to such a character, and of the others those that happen to
  start with the mark. So the recent entries come back as they were typed just if none of them holds one.
Main exports: Text.breaksLine, HistoryRecord, History.written, History.shown, Text.splitOnP_breaksLine,
  History.entries_written, History.render_recent_written_iff, history_shows_unbroken_entries, history_entry_cut_short
-/
import Calculator.Proofs.SessionReplies
import Calculator.Session
import Mathlib.Data.List.DropRight

namespace Calculator

/-! ### Lines of a file and stretches of its text -/

namespace Text

/-- A character that ends a line for the reader of a text file. -/
def breaksLine (c : Char) : Bool :=
  c = '\r' || isLineEnd c

/-- What unified newlines make of a line that is ended does not depend on the text behind it. -/
theorem exists_unifyNewlines_append (line : List Char) :
    ∃ front, ∀ rest, unifyNewlines (line ++ '\n' :: rest) = front ++ '\n' :: unifyNewlines rest := by
  fun_induction unifyNewlines line with
  | case1 => exact ⟨[], fun rest => by simp [unifyNewlines]⟩
  | case2 tail ih =>
      obtain ⟨front, unified⟩ := ih
      exact ⟨'\n' :: front, fun rest => by simp [unifyNewlines, unified]⟩
  | case3 c tail notBoth ih =>
      obtain ⟨front, unified⟩ := ih
      cases tail with
      | nil =>
          -- the carriage return at the very end is one with the line feed
          by_cases carriage : c = '\r'
          · exact ⟨[], fun rest => by simp [unifyNewlines, carriage]⟩
          · exact ⟨[c], fun rest => by simp [unifyNewlines, carriage]⟩
      | cons d tail =>
          have apart : ¬(c = '\r' ∧ d = '\n') := fun both => notBoth tail both.1 (by rw [both.2])
          refine ⟨(if c = '\r' then '\n' else c) :: front, fun rest => ?_⟩
          simp_all [unifyNewlines]

theorem splitLines_ne_nil {text : List Char} (nonempty : text ≠ []) : splitLines text ≠ [] := by
  cases text with
  | nil => exact absurd rfl nonempty
  | cons c rest =>
      unfold splitLines
      split
      · simp
      · split <;> simp

theorem splitLines_append_newline (line rest : List Char) :
    splitLines (line ++ '\n' :: rest) = splitLines (line ++ ['\n']) ++ splitLines rest := by
  induction line with
  | nil => rfl
  | cons c line ih =>
      have ended : line ++ ['\n'] ≠ [] := by simp
      obtain ⟨first, more, split⟩ := List.exists_cons_of_ne_nil (splitLines_ne_nil ended)
      by_cases ends : isLineEnd c = true
      · simp [splitLines, ends, ih]
      · simp [splitLines, ends, ih, split]

/-- The lines of a file are those up to a line feed and those behind it. -/
theorem lines_append_newline (line rest : List Char) :
    lines (line ++ '\n' :: rest) = lines (line ++ ['\n']) ++ lines rest := by
  obtain ⟨front, unified⟩ := exists_unifyNewlines_append line
  have alone : unifyNewlines (line ++ ['\n']) = front ++ ['\n'] := unified []
  rw [lines, lines, lines, unified, alone, splitLines_append_newline]

theorem lines_ne_nil (line : List Char) : lines (line ++ ['\n']) ≠ [] := by
  obtain ⟨front, unified⟩ := exists_unifyNewlines_append line
  rw [lines, unified]
  exact splitLines_ne_nil (by simp)

/-- A first character is a line of its own, or stands in front of the first line, unless it is one newline with the
    character behind it. -/
theorem lines_cons {c : Char} {rest first : List Char} {more : List (List Char)}
    (apart : ¬(c = '\r' ∧ rest.head? = some '\n')) (behind : lines rest = first :: more) :
    lines (c :: rest) = if breaksLine c then [] :: first :: more else (c :: first) :: more := by
  have unified : unifyNewlines (c :: rest) = (if c = '\r' then '\n' else c) :: unifyNewlines rest := by
    cases rest with
    | nil => simp [unifyNewlines]
    | cons d tail => simp_all [unifyNewlines]
  rw [lines] at behind
  rw [lines, unified, splitLines, behind]
  by_cases carriage : c = '\r'
  · simp [carriage, breaksLine, isLineEnd]
  · simp [carriage, breaksLine]

/-- The stretches of a line between the characters that break it are its lines in a file. There a carriage return at
    its end is one with the line feed behind it. -/
theorem splitOnP_breaksLine {line : List Char} (noFeed : '\n' ∉ line) :
    line.splitOnP breaksLine = lines (line ++ ['\n']) ++ if line.getLast? = some '\r' then [[]] else [] := by
  induction line with
  | nil => rfl
  | cons c line ih =>
      simp only [List.mem_cons, not_or] at noFeed
      by_cases last : line = [] ∧ c = '\r'
      · obtain ⟨rfl, rfl⟩ := last
        rfl
      · have apart : ¬(c = '\r' ∧ (line ++ ['\n']).head? = some '\n') := by
          cases line <;> simp_all [eq_comm]
        have ended : (c :: line).getLast? = some '\r' ↔ line.getLast? = some '\r' := by
          cases line <;> simp_all [List.getLast?_cons_cons]
        obtain ⟨first, more, behind⟩ := List.exists_cons_of_ne_nil (lines_ne_nil line)
        rw [List.splitOnP_cons_eq_if_modifyHead, ih noFeed.2, List.cons_append, lines_cons apart behind, behind]
        simp only [ended]
        split <;> rfl

/-- No stretch holds a character that ends one. -/
theorem not_of_mem_splitOnP {α : Type} {p : α → Bool} {xs stretch : List α} (h : stretch ∈ xs.splitOnP p) :
    ∀ x ∈ stretch, p x = false := by
  induction xs generalizing stretch with
  | nil =>
      obtain rfl : stretch = [] := by simpa using h
      simp
  | cons x xs ih =>
      obtain ⟨first, more, behind⟩ := List.exists_cons_of_ne_nil (List.splitOnP_ne_nil p xs)
      rw [List.splitOnP_cons_eq_if_modifyHead, behind] at h
      rw [behind] at ih
      split at h
      · rcases List.mem_cons.mp h with rfl | h
        · simp
        · exact ih h
      · rename_i goesOn
        rcases List.mem_cons.mp h with rfl | h
        · exact List.forall_mem_cons.mpr ⟨by simpa using goesOn, ih List.mem_cons_self⟩
        · exact ih (List.mem_cons_of_mem first h)

end Text

/-! ### What is written and what is shown -/

/-- What the writer of a history file keeps of one entry: when it was typed, and its text. -/
structure HistoryRecord where
  stamp : List Char
  entry : List Char
  /-- The time stands on one line. -/
  unbroken_stamp : ∀ c ∈ stamp, Text.breaksLine c = false
  /-- An entry is typed on one line. -/
  entry_noFeed : '\n' ∉ entry

namespace History

/-- A history file as its writer leaves it: an empty line, a note of the time and the marked entry for each record,
    every line ended by one line feed. -/
def written (records : List HistoryRecord) : List Char :=
  records.flatMap fun record =>
    '\n' :: (('#' :: ' ' :: record.stamp) ++ '\n' :: (('+' :: record.entry) ++ ['\n']))

/-- A line without its mark, if it has one. -/
def marked? : List Char → Option (List Char)
  | '+' :: entry => some entry
  | _ => none

/-- What is shown of a line: each stretch of it that has the mark, without it. -/
def shown (line : List Char) : List (List Char) :=
  (line.splitOnP Text.breaksLine).filterMap marked?

theorem entries_eq_filterMap (text : List Char) : entries text = (Text.lines text).filterMap marked? := rfl

theorem shown_of_unbroken {line : List Char} (unbroken : ∀ c ∈ line, Text.breaksLine c = false) :
    shown line = (marked? line).toList := by
  rw [shown, List.splitOnP_eq_singleton unbroken]
  cases h : marked? line <;> simp [h]

theorem entries_append_newline {line : List Char} (noFeed : '\n' ∉ line) (rest : List Char) :
    entries (line ++ '\n' :: rest) = shown line ++ entries rest := by
  have nothing : (if line.getLast? = some '\r' then [[]] else []).filterMap marked? = [] := by
    split <;> rfl
  rw [entries_eq_filterMap, entries_eq_filterMap, Text.lines_append_newline, List.filterMap_append, shown,
    Text.splitOnP_breaksLine noFeed, List.filterMap_append, nothing, List.append_nil]

/-- What is shown of a record. -/
def shownOf (record : HistoryRecord) : List (List Char) :=
  shown ('+' :: record.entry)

/-- What is shown of a history file is what is shown of each record. -/
theorem entries_written (records : List HistoryRecord) : entries (written records) = records.flatMap shownOf := by
  induction records with
  | nil => rfl
  | cons record records ih =>
      have unbroken : ∀ c ∈ '#' :: ' ' :: record.stamp, Text.breaksLine c = false :=
        List.forall_mem_cons.mpr ⟨rfl, List.forall_mem_cons.mpr ⟨rfl, record.unbroken_stamp⟩⟩
      have note : shown ('#' :: ' ' :: record.stamp) = [] := by
        rw [shown_of_unbroken unbroken]
        rfl
      have noteNoFeed : '\n' ∉ '#' :: ' ' :: record.stamp := fun feed => Bool.noConfusion (unbroken _ feed)
      have entryNoFeed : '\n' ∉ '+' :: record.entry := by
        simp [record.entry_noFeed]
      have joined : written (record :: records) = [] ++ '\n' :: (('#' :: ' ' :: record.stamp) ++ '\n' ::
          (('+' :: record.entry) ++ '\n' :: written records)) := by
        simp [written]
      rw [joined, entries_append_newline List.not_mem_nil, entries_append_newline noteNoFeed,
        entries_append_newline entryNoFeed, ih, note, List.flatMap_cons, shownOf]
      rfl

theorem shownOf_of_unbroken {record : HistoryRecord} (unbroken : ∀ c ∈ record.entry, Text.breaksLine c = false) :
    shownOf record = [record.entry] := by
  have marked : ∀ c ∈ '+' :: record.entry, Text.breaksLine c = false := List.forall_mem_cons.mpr ⟨rfl, unbroken⟩
  rw [shownOf, shown_of_unbroken marked]
  rfl

/-- Nothing that is shown holds a character that breaks a line. -/
theorem unbroken_of_mem_shownOf {record : HistoryRecord} {part : List Char} (h : part ∈ shownOf record) :
    ∀ c ∈ part, Text.breaksLine c = false := by
  obtain ⟨stretch, among, marked⟩ := List.mem_filterMap.mp h
  have unbroken := Text.not_of_mem_splitOnP among
  unfold marked? at marked
  split at marked
  · obtain rfl := Option.some.inj marked
    exact (List.forall_mem_cons.mp unbroken).2
  · cases marked

/-- The beginning of each entry is shown. -/
theorem shownOf_ne_nil (record : HistoryRecord) : shownOf record ≠ [] := by
  obtain ⟨first, more, behind⟩ := List.exists_cons_of_ne_nil (List.splitOnP_ne_nil Text.breaksLine record.entry)
  have plus : Text.breaksLine '+' = false := rfl
  simp [shownOf, shown, List.splitOnP_cons_eq_if_modifyHead, plus, behind, marked?]

/-! ### The recent entries -/

/-- The back of a list is what is taken from its end, if it has as many elements or all there are. -/
theorem rtake_append {α : Type} {front back : List α} {count : Nat}
    (fits : front.length + back.length - count = front.length) : (front ++ back).rtake count = back := by
  rw [List.rtake, List.length_append, fits, List.drop_left]

theorem rtake_ne_nil {α : Type} {xs : List α} {count : Nat} (nonempty : xs ≠ []) (positive : 0 < count) :
    xs.rtake count ≠ [] := by
  have length := List.length_pos_of_ne_nil nonempty
  rw [List.rtake, Ne, List.drop_eq_nil_iff]
  omega

theorem recent_written (records : List HistoryRecord) :
    recent (written records) = (records.flatMap shownOf).rtake shownEntries := by
  rw [recent, entries_written]
  rfl

/-- The last records are shown as their entries just if these are unbroken; how much is shown of older records does
    not matter. -/
theorem rtake_flatMap_shownOf_eq_iff (records : List HistoryRecord) (count : Nat) :
    (records.flatMap shownOf).rtake count = (records.rtake count).map HistoryRecord.entry ↔
      ∀ record ∈ records.rtake count, ∀ c ∈ record.entry, Text.breaksLine c = false := by
  constructor
  · intro same record recently
    have shown : record.entry ∈ (records.flatMap shownOf).rtake count := by
      rw [same]
      exact List.mem_map_of_mem recently
    obtain ⟨origin, -, among⟩ := List.mem_flatMap.mp (List.mem_of_mem_drop shown)
    exact unbroken_of_mem_shownOf among
  · intro unbroken
    have recently : (records.rtake count).flatMap shownOf = (records.rtake count).map HistoryRecord.entry := by
      rw [List.map_eq_flatMap]
      exact List.flatMap_congr fun record among => shownOf_of_unbroken (unbroken record among)
    have split : records.flatMap shownOf = (records.take (records.length - count)).flatMap shownOf ++
        (records.rtake count).map HistoryRecord.entry := by
      rw [← recently, ← List.flatMap_append, List.rtake, List.take_append_drop]
    rw [split]
    apply rtake_append
    rw [List.length_map, List.rtake, List.length_drop]
    rcases Nat.le_total records.length count with few | many
    · rw [Nat.sub_eq_zero_of_le few, List.take_zero, List.flatMap_nil, List.length_nil]
      omega
    · omega

/-- Entries without a line feed are told apart by the text that shows them. -/
theorem render_injOn {shown entries : List (List Char)} (shownSome : shown ≠ []) (entriesSome : entries ≠ [])
    (shownNoFeed : ∀ part ∈ shown, '\n' ∉ part) (entriesNoFeed : ∀ entry ∈ entries, '\n' ∉ entry)
    (same : render shown = render entries) : shown = entries := by
  have parted : ∀ {parts : List (List Char)}, parts ≠ [] → (∀ part ∈ parts, '\n' ∉ part) →
      (render parts).toList.splitOn '\n' = parts := by
    intro parts nonempty noFeed
    obtain ⟨part, more, rfl⟩ := List.exists_cons_of_ne_nil nonempty
    have joined : render (part :: more) = String.ofList (['\n'].intercalate (part :: more)) := rfl
    rw [joined, String.toList_ofList, List.splitOn_intercalate '\n' noFeed nonempty]
  rw [← parted shownSome shownNoFeed, same, parted entriesSome entriesNoFeed]

/-- The recent entries are shown as they were typed just if these are unbroken. -/
theorem render_recent_written_iff (records : List HistoryRecord) :
    render (recent (written records)) = render ((records.rtake shownEntries).map HistoryRecord.entry) ↔
      ∀ record ∈ records.rtake shownEntries, ∀ c ∈ record.entry, Text.breaksLine c = false := by
  rw [recent_written, ← rtake_flatMap_shownOf_eq_iff]
  refine ⟨fun same => ?_, congrArg render⟩
  cases records with
  | nil => rfl
  | cons record older =>
      have shownSome : (record :: older).flatMap shownOf ≠ [] := by
        simp [shownOf_ne_nil]
      have recentSome : (record :: older).rtake shownEntries ≠ [] := rtake_ne_nil (List.cons_ne_nil _ _) (by decide)
      refine render_injOn (rtake_ne_nil shownSome (by decide)) (by simpa using recentSome) ?_ ?_ same
      · intro part among feed
        obtain ⟨origin, -, among⟩ := List.mem_flatMap.mp (List.mem_of_mem_drop among)
        exact Bool.noConfusion (unbroken_of_mem_shownOf among _ feed)
      · intro entry among
        obtain ⟨origin, -, rfl⟩ := List.mem_map.mp among
        exact origin.entry_noFeed

theorem fromUTF8?_toUTF8 (text : String) : String.fromUTF8? text.toUTF8 = some text := by
  have valid : text.toUTF8.IsValidUTF8 := text.isValidUTF8
  rw [String.fromUTF8?, dif_pos valid]
  rfl

theorem answer_of_read {files : Files} {path : String} {text : List Char} (noNull : '\x00' ∉ path.toList)
    (opened : files.read path = .ok (String.ofList text).toUTF8) : answer files path = .ok (render (recent text)) := by
  rw [answer, if_neg (by simpa using noNull), opened]
  dsimp only
  rw [fromUTF8?_toUTF8]
  dsimp only
  rw [String.toList_ofList]

theorem reply_of_written {files : Files} {path line : String} {records : List HistoryRecord}
    (noNull : '\x00' ∉ path.toList) (opened : files.read path = .ok (String.ofList (written records)).toUTF8)
    (asks : ColonCommand line "history") (limits : Limits) (store : Store) :
    (answerLine limits files path line store).reply = .answer true (render (recent (written records))) := by
  rw [answerLine, Command.ofLine?_eq_history_iff.mpr asks]
  dsimp only
  rw [Command.reply, answer_of_read noNull opened, Reply.showing]

end History

/-- **History.** For a file as it is written, the answer to a line that asks for the history holds the last of what is
    shown of all entries. It is the last entries as they were typed, older ones first, just if none of these holds a
    character that breaks a line; without entries it says so. -/
theorem history_shows_unbroken_entries (limits : Limits) (files : Files) (path line : String)
    (records : List HistoryRecord) (store : Store) (noNull : '\x00' ∉ path.toList)
    (opened : files.read path = .ok (String.ofList (History.written records)).toUTF8)
    (asks : ColonCommand line "history") :
    let reply := (answerLine limits files path line store).reply
    reply = .answer true (History.render ((records.flatMap History.shownOf).rtake History.shownEntries)) ∧
      (reply = .answer true (History.render ((records.rtake History.shownEntries).map HistoryRecord.entry)) ↔
        ∀ record ∈ records.rtake History.shownEntries, ∀ c ∈ record.entry, Text.breaksLine c = false) ∧
      (records = [] → reply = .answer true "(no history)") := by
  have replied := History.reply_of_written noNull opened asks limits store
  refine ⟨by rw [replied, History.recent_written], ?_, ?_⟩
  · rw [replied, Reply.answer.injEq, eq_self, true_and]
    exact History.render_recent_written_iff records
  · rintro rfl
    exact replied

/-- What was broken by a form feed when it was shown does not matter any more behind fifty other entries. Before that,
    only its beginning is shown. -/
theorem history_shows_unbroken_entries_recent :
    let limits : Limits := ⟨20, 640, Or.inr (Nat.le_refl 640)⟩
    let old : HistoryRecord :=
      ⟨"2026-01-01".toList, "1 +\x0C2".toList, by simp [Text.breaksLine, Text.isLineEnd], by decide⟩
    let new : HistoryRecord :=
      ⟨"2026-01-02".toList, "x = 7 / 2".toList, by simp [Text.breaksLine, Text.isLineEnd], by decide⟩
    let early : Files := [("h", (String.ofList (History.written [old, new])).toUTF8)]
    let late : Files := [("h", (String.ofList (History.written (old :: List.replicate 50 new))).toUTF8)]
    (answerLine limits early "h" ":history" Store.empty).reply = .answer true "1 +\nx = 7 / 2" ∧
      (answerLine limits late "h" ": History all" Store.empty).reply =
        .answer true (String.ofList (['\n'].intercalate (List.replicate 50 "x = 7 / 2".toList))) := by
  intro limits old new early late
  have shortly : ColonCommand ":history" "history" := Command.ofLine?_eq_history_iff.mp (by decide)
  have later : ColonCommand ": History all" "history" := Command.ofLine?_eq_history_iff.mp (by decide)
  obtain ⟨shown, -⟩ :=
    history_shows_unbroken_entries limits early "h" ":history" [old, new] Store.empty (by decide) (by rfl) shortly
  obtain ⟨-, unbroken, -⟩ := history_shows_unbroken_entries limits late "h" ": History all"
    (old :: List.replicate 50 new) Store.empty (by decide) (by rfl) later
  refine ⟨shown, unbroken.mpr ?_⟩
  intro record among
  obtain rfl : record = new := List.eq_of_mem_replicate among
  simp [new, Text.breaksLine, Text.isLineEnd]

/-- Not every entry comes back as it was typed: behind a form feed, which a calculation may hold as a blank, the rest of
    it is missing. -/
theorem history_entry_cut_short :
    ¬∀ (limits : Limits) (files : Files) (path line : String) (records : List HistoryRecord) (store : Store),
      '\x00' ∉ path.toList → files.read path = .ok (String.ofList (History.written records)).toUTF8 →
      ColonCommand line "history" →
      (answerLine limits files path line store).reply =
        .answer true (History.render ((records.rtake History.shownEntries).map HistoryRecord.entry)) := by
  intro claim
  let record : HistoryRecord :=
    ⟨"2026-01-01".toList, "1 +\x0C2".toList, by simp [Text.breaksLine, Text.isLineEnd], by decide⟩
  let files : Files := [("h", (String.ofList (History.written [record])).toUTF8)]
  have noNull : '\x00' ∉ "h".toList := by decide
  have opened : files.read "h" = .ok (String.ofList (History.written [record])).toUTF8 := by rfl
  have asks : ColonCommand ":history" "history" := Command.ofLine?_eq_history_iff.mp (by decide)
  have claimed := claim ⟨20, 0, Or.inl rfl⟩ files "h" ":history" [record] Store.empty noNull opened asks
  rw [History.reply_of_written noNull opened asks] at claimed
  exact absurd claimed (by decide)

end Calculator
