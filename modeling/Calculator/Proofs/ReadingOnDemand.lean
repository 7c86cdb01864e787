/-
Module: Calculator.Proofs.ReadingOnDemand
Purpose: How much of its text a reader has taken. When it has delivered a token it stands behind the span of that
  token, and has taken the characters up to there and no more than one beyond: the one that shows where a run ends.
  Characters that are taken are gone from the source. So what a reader has delivered depends on what it has taken,
  except for a run that only the end of the text has ended, and so does an error found at a token. A parse that finds
  none takes the whole text.
Main exports: Reader.afterAsking, Reader.delivered, Lexeme.isRun, Reader.Took, Reader.StandsBehind,
  Reader.standsBehind_afterAsking, Lexeme.RunsOut, take_tokenize_of_prefix, Reader.feed_of_refused,
  Reader.feed_of_run, reading_takes_what_it_needs
-/
import Mathlib.Order.Monotone.Basic
import Calculator.Proofs.Respacing

namespace Calculator

namespace Reader

/-- The reader after it has been asked for a token some number of times. -/
def afterAsking (reader : Reader) : Nat → Reader
  | 0 => reader
  | count + 1 => (reader.afterAsking count).next.2

/-- The tokens that it has delivered then. -/
def delivered (reader : Reader) (count : Nat) : List Token :=
  (List.range count).filterMap fun asked => (reader.afterAsking asked).next.1

end Reader

/-! ### One token -/

/-- The lexeme is a run of letters and digits. -/
def Lexeme.isRun (lexeme : Lexeme) : Bool :=
  lexeme.text.all isWordChar

namespace Reader

/-- The spans of the tokens that a reader has not delivered yet. -/
def spansAhead (reader : Reader) : List Lexeme :=
  (locate reader.pos (pieces reader.rest)).filter fun lexeme => lexeme.token?.isSome

/-- From characters that start at an offset, the first span has been read: the reader is behind it, and keeps the
    character there just if the span is a run. -/
structure Took (pos : Nat) (chars : List Char) (span : Lexeme) (after : Reader) : Prop where
  spans : ((locate pos (pieces chars)).filter fun lexeme => lexeme.token?.isSome) = span :: after.spansAhead
  stop : after.pos = span.stop
  passed : ∃ passed, chars = passed ++ after.rest ∧ pos + passed.length = after.pos
  ahead : after.ahead = if span.isRun then after.rest.head? else none

theorem ahead_takeRun (run : List Char) (pos : Nat) (unread : List Char) :
    (takeRun run pos unread).2.ahead = (takeRun run pos unread).2.rest.head? := by
  induction unread generalizing run pos with
  | nil => rfl
  | cons c unread ih =>
      rw [takeRun]
      split
      · exact ih _ _
      · rfl

/-- A run is read up to the character that ends it. -/
theorem took_run {c : Char} (word : isWordChar c = true) (pos : Nat) (chars : List Char) :
    Took pos (c :: chars) ⟨c :: chars.takeWhile isWordChar, pos⟩ (takeRun [c] (pos + 1) chars).2 := by
  obtain ⟨-, left, place⟩ := takeRun_eq [c] (pos + 1) chars
  have inRun := isWordChar_of_mem_run word chars
  have stop : (takeRun [c] (pos + 1) chars).2.pos = pos + (c :: chars.takeWhile isWordChar).length := by
    rw [place, List.length_cons]
    omega
  refine ⟨?_, stop, ⟨c :: chars.takeWhile isWordChar, ?_, stop.symm⟩, ?_⟩
  · rw [pieces_of_word word, locate, List.filter_cons_of_pos, spansAhead, left, stop]
    simp [Lexeme.token?, Symbol.ofPiece?, word]
  · rw [left, List.cons_append, List.takeWhile_append_dropWhile]
  · rw [ahead_takeRun, Lexeme.isRun, List.all_eq_true.mpr inRun, if_pos rfl]

/-- Any other character is read alone, and nothing behind it is looked at. -/
theorem took_mark {c : Char} (mark : isWordChar c = false) (visible : isSpacing c = false) (pos : Nat)
    (chars : List Char) : Took pos (c :: chars) ⟨[c], pos⟩ ⟨chars, none, pos + 1⟩ := by
  refine ⟨?_, rfl, ⟨[c], rfl, rfl⟩, ?_⟩
  · rw [pieces_of_mark mark, locate, List.filter_cons_of_pos]
    · rfl
    · simp [Lexeme.token?, Symbol.ofPiece?, mark, visible]
  · simp [Lexeme.isRun, mark]

/-- Spacing before a span is passed over. -/
theorem Took.behind_spacing {c : Char} (spacing : isSpacing c = true) {pos : Nat} {chars : List Char}
    {span : Lexeme} {after : Reader} (took : Took (pos + 1) chars span after) : Took pos (c :: chars) span after := by
  obtain ⟨spans, stop, ⟨passed, split, place⟩, ahead⟩ := took
  have mark := isWordChar_of_isSpacing spacing
  refine ⟨?_, stop, ⟨c :: passed, by rw [split, List.cons_append], ?_⟩, ahead⟩
  · rw [← spans, pieces_of_mark mark, locate, List.filter_cons_of_neg]
    · rfl
    · simp [Lexeme.token?, Symbol.ofPiece?, mark, spacing]
  · rw [← place, List.length_cons]
    omega

theorem took_of_scan {pos : Nat} {chars : List Char} {token : Token} {after : Reader}
    (read : scan pos chars = (some token, after)) : ∃ span, Took pos chars span after := by
  induction chars generalizing pos with
  | nil => cases read
  | cons c chars ih =>
      rw [scan] at read
      by_cases word : isWordChar c = true
      · rw [if_pos word] at read
        obtain rfl : (takeRun [c] (pos + 1) chars).2 = after := congrArg Prod.snd read
        exact ⟨_, took_run word pos chars⟩
      · rw [if_neg word] at read
        by_cases spacing : isSpacing c = true
        · rw [if_pos spacing] at read
          obtain ⟨span, took⟩ := ih read
          exact ⟨span, took.behind_spacing spacing⟩
        · rw [if_neg spacing] at read
          cases read
          exact ⟨_, took_mark (Bool.eq_false_iff.mpr word) (Bool.eq_false_iff.mpr spacing) pos chars⟩

/-- At the end everything has been taken. -/
theorem eq_of_scan_none {pos : Nat} {chars : List Char} {after : Reader} (ended : scan pos chars = (none, after)) :
    after = ⟨[], none, pos + chars.length⟩ := by
  induction chars generalizing pos with
  | nil =>
      cases ended
      rfl
  | cons c chars ih =>
      rw [scan] at ended
      split at ended
      · cases ended
      · split at ended
        · rw [ih ended, List.length_cons, Nat.add_assoc, Nat.add_comm 1]
        · cases ended

/-! ### Places in a text -/

/-- The reader reads a text: what it has not passed is the text from its place on. -/
def Reads (text : List Char) (reader : Reader) : Prop :=
  ∃ before, text = before ++ reader.rest ∧ before.length = reader.pos

/-- The reader stands behind a span of the text. It has taken the characters up to there, and the one that follows if
    the span is a run and the text goes on; the rest is still in the source. -/
structure StandsBehind (text : List Char) (span : Lexeme) (reader : Reader) : Prop where
  pos : reader.pos = span.stop
  pulled : reader.pulled = if span.isRun ∧ span.stop < text.length then span.stop + 1 else span.stop
  unread : reader.unread = text.drop reader.pulled

section Places

variable {text : List Char} {reader after : Reader} {token : Token}

theorem reads_ofText (text : String) : (ofText text).Reads text.toList :=
  ⟨[], rfl, rfl⟩

/-- The source holds what has not been taken. -/
theorem Reads.unread_eq (reads : reader.Reads text) : reader.unread = text.drop reader.pulled := by
  obtain ⟨before, rfl, place⟩ := reads
  have length : (before ++ reader.ahead.toList).length = reader.pulled := by
    rw [List.length_append, place, pulled]
  rw [rest, ← List.append_assoc, ← length, List.drop_left]

theorem Reads.pulled_le (reads : reader.Reads text) : reader.pulled ≤ text.length := by
  obtain ⟨before, rfl, place⟩ := reads
  rw [pulled, ← place, rest, List.length_append, List.length_append]
  omega

theorem Reads.next (reads : reader.Reads text) : reader.next.2.Reads text := by
  obtain ⟨before, split, place⟩ := reads
  rcases read : reader.next with ⟨_ | token, after⟩
  · obtain rfl := eq_of_scan_none read
    refine ⟨text, (List.append_nil _).symm, ?_⟩
    rw [split, List.length_append, place]
  · obtain ⟨span, took⟩ := took_of_scan read
    obtain ⟨passed, split', place'⟩ := took.passed
    refine ⟨before ++ passed, ?_, ?_⟩
    · rw [split, split', List.append_assoc]
    · rw [List.length_append, place, place']

/-- Nothing is put back. -/
theorem pulled_le_next (reader : Reader) : reader.pulled ≤ reader.next.2.pulled := by
  have short : reader.ahead.toList.length ≤ 1 := by cases reader.ahead <;> simp
  rcases read : reader.next with ⟨_ | token, after⟩
  · obtain rfl := eq_of_scan_none read
    simp [pulled, rest]
  · obtain ⟨span, took⟩ := took_of_scan read
    obtain ⟨passed, split, place⟩ := took.passed
    have shorter := rest_next_length_lt read
    rw [split, List.length_append] at shorter
    have further : reader.pos + 1 ≤ after.pos := by omega
    calc reader.pulled
        ≤ reader.pos + 1 := Nat.add_le_add_left short _
      _ ≤ after.pos := further
      _ ≤ after.pulled := Nat.le_add_right _ _

theorem Took.standsBehind {span : Lexeme} (took : Took reader.pos reader.rest span after)
    (readsOn : after.Reads text) : after.StandsBehind text span := by
  refine ⟨took.stop, ?_, readsOn.unread_eq⟩
  obtain ⟨before, split, place⟩ := readsOn
  have goesOn : span.stop < text.length ↔ after.rest ≠ [] := by
    rw [split, List.length_append, place, took.stop, ← List.length_pos_iff]
    omega
  rw [pulled, took.ahead, took.stop]
  cases run : span.isRun with
  | false => simp
  | true => cases behind : after.rest <;> simp_all

/-! ### Several tokens -/

/-- To ask for a token is to take the first of those that are left. -/
theorem upcoming_next (reader : Reader) :
    reader.next.1 = reader.upcoming.head? ∧ reader.next.2.upcoming = reader.upcoming.tail := by
  rcases read : reader.next with ⟨_ | token, after⟩
  · obtain rfl := eq_of_scan_none read
    rw [upcoming_of_end read]
    exact ⟨rfl, rfl⟩
  · rw [upcoming_of_next read]
    exact ⟨rfl, rfl⟩

theorem upcoming_afterAsking (reader : Reader) (count : Nat) :
    (reader.afterAsking count).upcoming = reader.upcoming.drop count := by
  induction count with
  | zero => rfl
  | succ count ih => rw [afterAsking, (upcoming_next _).2, ih, List.tail_drop]

theorem delivered_eq (reader : Reader) (count : Nat) : reader.delivered count = reader.upcoming.take count := by
  induction count with
  | zero => rfl
  | succ count ih =>
      have next : (reader.afterAsking count).next.1 = reader.upcoming[count]? := by
        rw [(upcoming_next _).1, upcoming_afterAsking, List.head?_drop]
      have last : [count].filterMap (fun asked => (reader.afterAsking asked).next.1) =
          (reader.afterAsking count).next.1.toList := by
        rw [List.filterMap_cons]
        cases (reader.afterAsking count).next.1 <;> rfl
      rw [delivered] at ih
      rw [delivered, List.range_succ, List.filterMap_append, ih, last, next, List.take_add_one]

theorem spansAhead_of_end (ended : reader.next = (none, after)) : reader.spansAhead = [] := by
  have none : reader.upcoming = [] := upcoming_of_end ended
  simpa [upcoming, spansAhead, List.filterMap_eq_nil_iff, List.filter_eq_nil_iff] using none

theorem exists_took_of_next (read : reader.next = (some token, after)) :
    ∃ span, reader.spansAhead = span :: after.spansAhead ∧ Took reader.pos reader.rest span after := by
  obtain ⟨span, took⟩ := took_of_scan read
  exact ⟨span, took.spans, took⟩

theorem spansAhead_next (reader : Reader) : reader.next.2.spansAhead = reader.spansAhead.tail := by
  rcases read : reader.next with ⟨_ | token, after⟩
  · rw [spansAhead_of_end read]
    obtain rfl := eq_of_scan_none read
    rfl
  · obtain ⟨span, ahead, -⟩ := exists_took_of_next read
    rw [ahead]
    rfl

theorem spansAhead_afterAsking (reader : Reader) (count : Nat) :
    (reader.afterAsking count).spansAhead = reader.spansAhead.drop count := by
  induction count with
  | zero => rfl
  | succ count ih => rw [afterAsking, spansAhead_next, ih, List.tail_drop]

theorem Reads.afterAsking (reads : reader.Reads text) (count : Nat) : (reader.afterAsking count).Reads text := by
  induction count with
  | zero => exact reads
  | succ count ih => exact ih.next

/-- Behind a token that it has delivered, a reader stands behind the span of that token. -/
theorem standsBehind_afterAsking (reads : reader.Reads text) {k : Nat} {span : Lexeme}
    (found : reader.spansAhead[k]? = some span) : (reader.afterAsking (k + 1)).StandsBehind text span := by
  have first : (reader.afterAsking k).spansAhead.head? = some span := by
    rw [spansAhead_afterAsking, List.head?_drop, found]
  have readsOn := reads.afterAsking (k + 1)
  rw [Reader.afterAsking] at readsOn ⊢
  rcases read : (reader.afterAsking k).next with ⟨_ | token, after⟩
  · simp [spansAhead_of_end read] at first
  · obtain ⟨other, ahead, took⟩ := exists_took_of_next read
    obtain rfl : other = span := by simpa [ahead] using first
    rw [read] at readsOn
    exact took.standsBehind readsOn

/-- Between two moments the source loses the characters that are taken, and no others. -/
theorem exists_taken (reads : reader.Reads text) {few count : Nat} (fewer : few ≤ count) :
    ∃ taken, (reader.afterAsking few).unread = taken ++ (reader.afterAsking count).unread ∧
      (reader.afterAsking count).pulled = (reader.afterAsking few).pulled + taken.length := by
  have more : (reader.afterAsking few).pulled ≤ (reader.afterAsking count).pulled :=
    monotone_nat_of_le_succ (fun asked => pulled_le_next (reader.afterAsking asked)) fewer
  have within := (reads.afterAsking count).pulled_le
  obtain ⟨gap, same⟩ := Nat.exists_eq_add_of_le more
  refine ⟨(text.drop (reader.afterAsking few).pulled).take gap, ?_, ?_⟩
  · rw [(reads.afterAsking few).unread_eq, (reads.afterAsking count).unread_eq, same, ← List.drop_drop,
      List.take_append_drop]
  · rw [List.length_take, List.length_drop]
    omega

end Places

end Reader

/-! ### Texts that start alike -/

theorem locate_append (start : Nat) (first second : List (List Char)) :
    locate start (first ++ second) = locate start first ++ locate (start + first.flatten.length) second := by
  induction first generalizing start with
  | nil => rfl
  | cons piece first ih =>
      rw [List.cons_append, locate, locate, ih, List.flatten_cons, List.length_append, Nat.add_assoc]
      rfl

/-- The tokens on both sides of a place where a run does not go on. -/
theorem tokenize_split {text : String} {front back : List Char} (split : text.toList = front ++ back)
    (apart : ¬Touch front back) :
    tokenize text = (lexemes front).filterMap Lexeme.token? ++
      (locate front.length (pieces back)).filterMap Lexeme.token? := by
  rw [tokenize, lexemes, split, pieces_append apart, locate_append, flatten_pieces, List.filterMap_append,
    Nat.zero_add]
  rfl

/-- A lexeme ends where no run goes on, and the last character before its end tells whether it is a run. -/
theorem Lexeme.CutFrom.split {text : List Char} {lexeme : Lexeme} (cut : lexeme.CutFrom text) :
    ∃ front back, text = front ++ back ∧ front.length = lexeme.stop ∧ lexeme.start < lexeme.stop ∧
      front.getLast?.any isWordChar = lexeme.isRun ∧ ¬Touch front back := by
  obtain ⟨before, back, split, place, piece⟩ := cut
  obtain ⟨nonempty, last, apart⟩ : lexeme.text ≠ [] ∧
      (before ++ lexeme.text).getLast?.any isWordChar = lexeme.isRun ∧ ¬Touch (before ++ lexeme.text) back := by
    rw [isRun]
    generalize lexeme.text = characters at piece
    cases piece with
    | run nonempty word starts stops =>
        refine ⟨nonempty, ?_, fun touch => ?_⟩
        · rw [List.all_eq_true.mpr word, List.getLast?_append, List.getLast?_eq_some_getLast nonempty]
          exact word _ (List.getLast_mem nonempty)
        · exact Bool.false_ne_true (stops.symm.trans touch.2)
    | @mark c notWord =>
        have last : (before ++ [c]).getLast?.any isWordChar = false := by
          rw [List.getLast?_concat, Option.any_some, notWord]
        refine ⟨List.cons_ne_nil _ _, ?_, fun touch => ?_⟩
        · rw [last, List.all_cons, notWord, Bool.false_and]
        · exact Bool.false_ne_true (last.symm.trans touch.1)
  have long := List.length_pos_iff.mpr nonempty
  refine ⟨before ++ lexeme.text, back, split, ?_, ?_, last, apart⟩
  · rw [List.length_append, place, stop]
  · rw [stop]
    omega

/-- A lexeme is a run that only the end of the text has ended. -/
def Lexeme.RunsOut (text : List Char) (lexeme : Lexeme) : Prop :=
  lexeme.isRun = true ∧ lexeme.stop = text.length

instance (text : List Char) (lexeme : Lexeme) : Decidable (lexeme.RunsOut text) :=
  inferInstanceAs (Decidable (_ ∧ _))

/-- Behind a place where a run was seen to end, or where there was no run, it ends in every text that starts with the
    characters that have shown this. -/
theorem exists_split_of_prefix {front back other : List Char} (apart : ¬Touch front back)
    (shown : front.getLast?.any isWordChar = true → back ≠ [])
    (alike : front ++ (if front.getLast?.any isWordChar then back.take 1 else []) <+: other) :
    ∃ back', other = front ++ back' ∧ ¬Touch front back' := by
  obtain ⟨more, rfl⟩ := alike
  refine ⟨_, List.append_assoc _ _ _, ?_⟩
  rintro ⟨goesOn, starts⟩
  refine apart ⟨goesOn, ?_⟩
  rw [if_pos goesOn] at starts
  cases back with
  | nil => exact absurd rfl (shown goesOn)
  | cons c back => exact starts

section Alike

variable {text : String} {k : Nat} {span : Lexeme}

/-- Each token has a span. -/
theorem exists_span {token : Token} (found : (tokenize text)[k]? = some token) :
    ∃ span, (spans text)[k]? = some span ∧ token.SpelledBy span := by
  have spelled : List.Forall₂ Token.SpelledBy (tokenize text) (spans text) :=
    forall₂_spelledBy fun _ => cutFrom_of_mem_lexemes
  obtain ⟨length, each⟩ := List.forall₂_iff_get.mp spelled
  obtain ⟨inside, rfl⟩ := List.getElem?_eq_some_iff.mp found
  exact ⟨_, List.getElem?_eq_getElem (length ▸ inside), each k inside (length ▸ inside)⟩

/-- The tokens up to the one with a given span are those of the characters up to the end of the span, where no run
    goes on. -/
theorem exists_split_of_spans (found : (spans text)[k]? = some span) :
    ∃ front back, text.toList = front ++ back ∧ front.length = span.stop ∧
      front.getLast?.any isWordChar = span.isRun ∧ ¬Touch front back ∧
      k < ((lexemes front).filterMap Lexeme.token?).length := by
  have member := (List.mem_filter.mp (List.mem_of_getElem? found)).1
  obtain ⟨front, back, split, length, long, last, apart⟩ := (cutFrom_of_mem_lexemes member).split
  refine ⟨front, back, split, length, last, apart, ?_⟩
  by_contra behind
  rw [List.length_filterMap_eq_countP, List.countP_eq_length_filter, lexemes] at behind
  rw [spans, lexemes, split, pieces_append apart, locate_append, flatten_pieces, List.filter_append,
    List.getElem?_append_right (Nat.le_of_not_lt behind), Nat.zero_add] at found
  have later := start_le_of_mem_locate (List.mem_filter.mp (List.mem_of_getElem? found)).1
  omega

/-- The characters that a reader behind a span has taken fix the tokens up to there, unless the span is a run that
    the end of the text has ended. -/
theorem take_tokenize_of_prefix (found : (spans text)[k]? = some span) (shown : ¬span.RunsOut text.toList)
    {reader : Reader} (stands : reader.StandsBehind text.toList span) {other : String}
    (alike : text.toList.take reader.pulled <+: other.toList) :
    (tokenize other).take (k + 1) = (tokenize text).take (k + 1) := by
  obtain ⟨front, back, split, length, last, apart, early⟩ := exists_split_of_spans found
  have shown' : front.getLast?.any isWordChar = true → back ≠ [] := by
    rintro run rfl
    exact shown ⟨last.symm.trans run, by rw [split, List.append_nil, length]⟩
  have taken : text.toList.take reader.pulled =
      front ++ (if front.getLast?.any isWordChar then back.take 1 else []) := by
    rw [stands.pulled, ← last, ← length, split]
    by_cases run : front.getLast?.any isWordChar = true
    · have goesOn := List.length_pos_iff.mpr (shown' run)
      rw [if_pos run, if_pos ⟨run, by rw [List.length_append]; omega⟩, List.take_length_add_append]
    · rw [if_neg run, if_neg fun both => run both.1, List.append_nil, List.take_left]
  rw [taken] at alike
  obtain ⟨back', split', apart'⟩ := exists_split_of_prefix apart shown' alike
  rw [tokenize_split split apart, tokenize_split split' apart', List.take_append_of_le_length early,
    List.take_append_of_le_length early]

end Alike

/-! ### Parsing on demand -/

namespace Reader

theorem afterAsking_next (reader : Reader) (count : Nat) :
    reader.next.2.afterAsking count = reader.afterAsking (count + 1) := by
  induction count with
  | zero => rfl
  | succ count ih => rw [afterAsking, ih, ← afterAsking]

/-- A token that is refused is the last one that is asked for. -/
theorem feed_of_refused {reader : Reader} {parser between : Parser} {before rest : List Token} {token : Token}
    {cause : SyntaxError} (ahead : reader.upcoming = before ++ token :: rest)
    (ran : parser.run before = .ok between) (refused : between.step token = .error cause) :
    reader.feed parser = (.error cause, reader.afterAsking (before.length + 1)) := by
  fun_induction feed reader parser generalizing before with
  | case1 reader parser after ended =>
      rw [upcoming_of_end ended] at ahead
      exact absurd ahead.symm (List.append_ne_nil_of_right_ne_nil _ (List.cons_ne_nil _ _))
  | case2 reader parser first after read next stepped _ ih =>
      rw [upcoming_of_next read] at ahead
      cases before with
      | nil =>
          cases ran
          cases ahead
          rw [stepped] at refused
          cases refused
      | cons other before =>
          obtain ⟨rfl, left⟩ := List.cons.inj ahead
          rw [Parser.run, stepped] at ran
          rw [ih left ran, List.length_cons, ← afterAsking_next reader, read]
  | case3 reader parser first after read other stepped =>
      rw [upcoming_of_next read] at ahead
      cases before with
      | nil =>
          cases ran
          cases ahead
          rw [stepped] at refused
          cases refused
          rw [List.length_nil, ← afterAsking_next, read]
          rfl
      | cons other before =>
          obtain ⟨rfl, -⟩ := List.cons.inj ahead
          rw [Parser.run, stepped] at ran
          cases ran

/-- If every token is accepted, the source is read to its end. -/
theorem feed_of_run {reader : Reader} {parser between : Parser} (ran : parser.run reader.upcoming = .ok between) :
    reader.feed parser = (between.finish, ⟨[], none, reader.pos + reader.rest.length⟩) := by
  fun_induction feed reader parser with
  | case1 reader parser after ended =>
      rw [upcoming_of_end ended] at ran
      cases ran
      rw [eq_of_scan_none ended]
  | case2 reader parser token after read next stepped _ ih =>
      rw [upcoming_of_next read, Parser.run, stepped] at ran
      obtain ⟨span, took⟩ := took_of_scan read
      obtain ⟨passed, split, place⟩ := took.passed
      rw [ih ran, split, List.length_append, ← place, Nat.add_assoc]
  | case3 reader parser token after read cause refused =>
      rw [upcoming_of_next read, Parser.run, refused] at ran
      cases ran

end Reader

/-- Parsing on demand stops at the token that is refused, and elsewhere only at the end of the text. -/
theorem parse_of_stopsAt {text : String} {before : List Token} {token : Token} {cause : SyntaxError}
    (stops : StopsAt text before token cause) :
    (Reader.ofText text).parse = (.error cause, (Reader.ofText text).afterAsking (before.length + 1)) := by
  obtain ⟨⟨rest, cut⟩, between, ran, refused⟩ := stops
  exact Reader.feed_of_refused cut ran refused

theorem parse_of_never_stopsAt {text : String} (accepted : ¬∃ before token cause, StopsAt text before token cause) :
    (Reader.ofText text).parse.2 = ⟨[], none, text.toList.length⟩ := by
  have whole : 0 + text.toList.length = text.toList.length := Nat.zero_add _
  cases ran : Parser.start.run (tokenize text) with
  | ok between => rw [Reader.parse, Reader.feed_of_run ran, ← whole]; rfl
  | error cause =>
      obtain ⟨before, token, rest, between, cut, ran, refused⟩ := Parser.exists_refused_of_run ran
      exact absurd ⟨before, token, cause, ⟨rest, cut⟩, between, ran, refused⟩ accepted

theorem StopsAt.of_take {text other : String} {before : List Token} {token : Token} {cause : SyntaxError}
    (stops : StopsAt text before token cause)
    (same : (tokenize other).take (before.length + 1) = (tokenize text).take (before.length + 1)) :
    StopsAt other before token cause := by
  obtain ⟨⟨rest, cut⟩, refused⟩ := stops
  refine ⟨⟨(tokenize other).drop (before.length + 1), ?_⟩, refused⟩
  have begins : (tokenize text).take (before.length + 1) = before ++ [token] := by
    rw [cut, List.take_length_add_append]
    rfl
  rw [List.append_cons, ← begins, ← same, List.take_append_drop]

/-- **Laziness.** When a reader has delivered a token it stands behind the span of that token, and has taken the
    characters up to there, and the one that follows if the token is a run and the text goes on; what has been taken
    is gone from the source. The tokens so far are the same in every text that starts with the characters taken,
    unless the last of them is a run that only the end of the text has ended. So a parse that stops at a token has
    taken what was taken for that token, and stops with the same error in all these texts; a parse that stops at no
    token takes the whole text. -/
theorem reading_takes_what_it_needs (text : String) :
    (∀ k token, (tokenize text)[k]? = some token → ∃ span, (spans text)[k]? = some span ∧ token.SpelledBy span ∧
      (Reader.ofText text).delivered (k + 1) = (tokenize text).take (k + 1) ∧
      ((Reader.ofText text).afterAsking (k + 1)).StandsBehind text.toList span ∧
      (∀ few ≤ k, ∃ taken,
        ((Reader.ofText text).afterAsking few).unread =
          taken ++ ((Reader.ofText text).afterAsking (k + 1)).unread ∧
        ((Reader.ofText text).afterAsking (k + 1)).pulled =
          ((Reader.ofText text).afterAsking few).pulled + taken.length) ∧
      (¬span.RunsOut text.toList → ∀ other : String,
        text.toList.take ((Reader.ofText text).afterAsking (k + 1)).pulled <+: other.toList →
        (Reader.ofText other).delivered (k + 1) = (Reader.ofText text).delivered (k + 1))) ∧
    (∀ before token cause, StopsAt text before token cause → ∃ span, (spans text)[before.length]? = some span ∧
      (Reader.ofText text).parse = (.error cause, (Reader.ofText text).afterAsking (before.length + 1)) ∧
      (¬span.RunsOut text.toList → ∀ other : String,
        text.toList.take (Reader.ofText text).parse.2.pulled <+: other.toList →
        (Reader.ofText other).parse.1 = .error cause)) ∧
    ((¬∃ before token cause, StopsAt text before token cause) →
      (Reader.ofText text).parse.2.pulled = text.toList.length ∧ (Reader.ofText text).parse.2.unread = []) := by
  have reads := Reader.reads_ofText text
  refine ⟨?_, ?_, ?_⟩
  · intro k token found
    obtain ⟨span, there, spelledBy⟩ := exists_span found
    have stands := Reader.standsBehind_afterAsking reads there
    refine ⟨span, there, spelledBy, Reader.delivered_eq _ _, stands, ?_, ?_⟩
    · intro few before
      exact Reader.exists_taken reads (Nat.le_succ_of_le before)
    · intro shown other alike
      rw [Reader.delivered_eq, Reader.delivered_eq]
      exact take_tokenize_of_prefix there shown stands alike
  · intro before token cause stops
    obtain ⟨span, there, -⟩ := exists_span stops.getElem?
    have parsed := parse_of_stopsAt stops
    have stands := Reader.standsBehind_afterAsking reads there
    refine ⟨span, there, parsed, ?_⟩
    intro shown other alike
    rw [parsed] at alike
    have same := take_tokenize_of_prefix there shown stands alike
    rw [Reader.parse_ofText]
    exact (stops.of_take same).parse
  · intro accepted
    rw [parse_of_never_stopsAt accepted]
    exact ⟨rfl, rfl⟩

/-- The space behind a name is taken with the name, but nothing is taken with the parenthesis that is refused. An
    expression is taken whole. -/
theorem reading_takes_what_it_needs_refused :
    let reader := Reader.ofText "a1 +) 2"
    let cause := SyntaxError.expectedOperand ⟨.closeParen, 4⟩
    (reader.afterAsking 1).StandsBehind "a1 +) 2".toList ⟨['a', '1'], 0⟩ ∧ (reader.afterAsking 1).pulled = 3 ∧
      (Reader.ofText "a1 = 3").delivered 1 = reader.delivered 1 ∧
      StopsAt "a1 +) 2" [⟨.var "a1", 0⟩, ⟨.plus, 3⟩] ⟨.closeParen, 4⟩ cause ∧
      reader.parse = (.error cause, ⟨[' ', '2'], none, 5⟩) ∧
      (Reader.ofText "a1 +)(").parse.1 = .error cause ∧
      (Reader.ofText "a1 +2").parse.2.pulled = "a1 +2".toList.length := by
  intro reader cause
  obtain ⟨onTokens, onRefusal, -⟩ := reading_takes_what_it_needs "a1 +) 2"
  have first : (spans "a1 +) 2")[0]? = some ⟨['a', '1'], 0⟩ := by rfl
  have third : (spans "a1 +) 2")[2]? = some ⟨[')'], 4⟩ := by rfl
  have pulled : (reader.afterAsking 1).pulled = 3 := by rfl
  have left : reader.afterAsking 3 = ⟨[' ', '2'], none, 5⟩ := by rfl
  have stops : StopsAt "a1 +) 2" [⟨.var "a1", 0⟩, ⟨.plus, 3⟩] ⟨.closeParen, 4⟩ cause :=
    ⟨⟨[⟨.const 2, 6⟩], rfl⟩, _, rfl, rfl⟩
  obtain ⟨span, there, -, -, stands, -, same⟩ := onTokens 0 ⟨.var "a1", 0⟩ (by rfl)
  obtain rfl := Option.some.inj (there.symm.trans first)
  have alike := same (by decide) "a1 = 3" (by rw [pulled]; decide)
  obtain ⟨span, there, parsed, same⟩ := onRefusal _ _ _ stops
  obtain rfl := Option.some.inj (there.symm.trans third)
  have parsed' : reader.parse = (.error cause, ⟨[' ', '2'], none, 5⟩) := parsed.trans (by rw [← left]; rfl)
  refine ⟨stands, pulled, alike, stops, parsed', same (by decide) "a1 +)(" (by rw [parsed']; decide), ?_⟩
  apply ((reading_takes_what_it_needs "a1 +2").2.2 ?_).1
  rintro ⟨before, token, cause, stops⟩
  have accepted : parse "a1 +2" = .ok (.binary (.arith .add) (.var "a1") (.const 2)) := by rfl
  rw [stops.parse] at accepted
  cases accepted

/-- A run at the end of a text goes on in a longer one. -/
example : (Reader.ofText "12").delivered 1 = [⟨.const 12, 0⟩] ∧
    (Reader.ofText "12x").delivered 1 = [⟨.unexpected "12x", 0⟩] := by decide

end Calculator
