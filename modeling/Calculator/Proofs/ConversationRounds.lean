/-
Module: Calculator.Proofs.ConversationRounds
Purpose: What a conversation shows, from its banner to its farewell. Up to the key that leaves it is a sequence of
  rounds, each of an event and the store that it meets. A round shows a prompt with the names in the store, and then
  what its key is answered with; interrupts and blank lines are silent, that is they leave the store alone, so that
  the other rounds are the same without them. A conversation writes to no file, but the prompt may record what is
  typed, so each event comes with the files as they are then; only the answer to a line that asks for the history
  depends on them. Names come into the store and stay, so each prompt offers those of the prompt before it.
Main exports: Key.Leaves, Key.isSilent, heard, speaking, rounds, Transcript.Tells, HistoryReadable, SameRound,
  goesOn_heard, Console.tells_converse, rounds_speaking, forall₂_sameRound, promptedStores,
  pairwise_names_promptedStores, conversation_tells_rounds
-/
import Calculator.Program
import Calculator.Proofs.SessionReplies
import Calculator.Proofs.SessionStore
import Calculator.Proofs.StoreViews

namespace Calculator

/-! ### Keys -/

namespace Key

/-- The key ends a conversation in the normal way: it is the end of the input, or a line that asks to leave. -/
def Leaves : Key → Prop
  | .line text => AsksToLeave text
  | .interrupt => False
  | .endOfInput => True

instance (text : String) : Decidable (AsksToLeave text) :=
  decidable_of_iff (Command.ofLine? text = some .leave) Command.ofLine?_eq_leave_iff

instance : (key : Key) → Decidable key.Leaves
  | .line text => inferInstanceAs (Decidable (AsksToLeave text))
  | .interrupt => inferInstanceAs (Decidable False)
  | .endOfInput => inferInstanceAs (Decidable True)

/-- The key asks for nothing: it is an interrupt or a line of blanks. -/
def isSilent : Key → Bool
  | .line text => Text.isBlankText text
  | .interrupt => true
  | .endOfInput => false

theorem not_leaves_of_isSilent {key : Key} (silent : key.isSilent = true) : ¬key.Leaves := by
  cases key with
  | line text => exact not_asksToLeave_of_isBlankText silent
  | interrupt => exact not_false
  | endOfInput => cases silent

end Key

/-- The events before the one that leaves. -/
def heard (events : List Event) : List Event :=
  events.takeWhile fun event => !decide event.key.Leaves

/-- The events that ask for something. -/
def speaking (events : List Event) : List Event :=
  events.filter fun event => !event.key.isSilent

/-- Each event is found with what the keys up to one of them have led to. -/
theorem Event.exists_files_of_mem_ofKeys {recorded : List Key → Files} {before keys : List Key} {event : Event}
    (among : event ∈ ofKeys recorded before keys) : ∃ soFar, event.files = recorded soFar := by
  induction keys generalizing before with
  | nil => cases among
  | cons key rest ih =>
      rcases List.mem_cons.mp among with rfl | later
      · exact ⟨before ++ [key], rfl⟩
      · exact ih later

theorem heard_cons_of_leaves {event : Event} (leaves : event.key.Leaves) (rest : List Event) :
    heard (event :: rest) = [] := by
  simp [heard, leaves]

theorem heard_cons_of_stays {event : Event} (stays : ¬event.key.Leaves) (rest : List Event) :
    heard (event :: rest) = event :: heard rest := by
  simp [heard, stays]

theorem not_leaves_of_mem_heard {event : Event} {events : List Event} (among : event ∈ heard events) :
    ¬event.key.Leaves := by
  simpa using List.mem_takeWhile_imp among

/-- What is heard of some events depends on their keys only. -/
theorem map_key_heard (events : List Event) :
    (heard events).map Event.key = (events.map Event.key).takeWhile fun key => !decide key.Leaves := by
  rw [List.takeWhile_map]
  rfl

/-- No silent event leaves, so it does not matter when they are taken out. -/
theorem heard_speaking (events : List Event) : heard (speaking events) = speaking (heard events) := by
  induction events with
  | nil => rfl
  | cons event rest ih =>
      by_cases leaves : event.key.Leaves
      · have speaks : event.key.isSilent = false :=
          Bool.eq_false_iff.mpr fun silent => Key.not_leaves_of_isSilent silent leaves
        rw [speaking, List.filter_cons_of_pos (by simp [speaks]), heard_cons_of_leaves leaves,
          heard_cons_of_leaves leaves]
        rfl
      · rw [heard_cons_of_stays leaves, speaking, speaking, List.filter_cons, List.filter_cons]
        split
        · rw [heard_cons_of_stays leaves]
          exact congrArg _ ih
        · exact ih

/-! ### Rounds -/

section Rounds

variable {limits : Limits} {historyFile : String} {settings : Settings} {store : Store} {event other : Event}

/-- The events, each with the store that it meets. -/
def rounds (limits : Limits) (historyFile : String) : Store → List Event → List (Store × Event)
  | _, [] => []
  | store, event :: rest =>
    (store, event) :: rounds limits historyFile (store.afterEvent limits historyFile event) rest

/-- All that a round shows: the prompt, the records and what is printed. -/
def roundOutputs (limits : Limits) (settings : Settings) (round : Store × Event) : List Output :=
  Console.promptWith settings round.1 ::
    (round.2.noted limits settings.historyFile round.1).map Output.logged ++
      (round.2.printed limits settings.historyFile round.1).map Output.shown

/-- A transcript tells some rounds: the banner, each round, one more prompt on the last store and the farewell. -/
structure Transcript.Tells (transcript : Transcript) (limits : Limits) (settings : Settings)
    (rounds : List (Store × Event)) (last : Store) : Prop where
  outputs : transcript.outputs =
    [.shown Console.banner, .openedHistory settings.historyFile] ++ rounds.flatMap (roundOutputs limits settings) ++
      [Console.promptWith settings last, .shown Console.farewell]
  ending : transcript.ending = .exit 0
  store : transcript.store = last

/-- The event is a line that asks for the history. -/
def Event.AsksForHistory (event : Event) : Prop :=
  ∃ line, event.key = .line line ∧ ColonCommand line "history"

/-- No event asks for a history about which there is no answer, by the files as they are at that event. -/
def HistoryReadable (historyFile : String) (events : List Event) : Prop :=
  ∀ event ∈ events, event.AsksForHistory → ∀ failure, ¬Unreadable event.files historyFile failure

theorem not_asksForHistory_of_isSilent (silent : event.key.isSilent = true) : ¬event.AsksForHistory := by
  rintro ⟨line, typed, body, word, rest, colon, -⟩
  rw [typed] at silent
  have nothing := Text.strip_of_forall_isBlank (List.all_eq_true.mp silent)
  simp [nothing] at colon

/-- Silent events have no part in it. -/
theorem historyReadable_speaking_iff {events : List Event} :
    HistoryReadable historyFile (speaking events) ↔ HistoryReadable historyFile events := by
  constructor
  · intro readable event among asks
    have speaks : event.key.isSilent = false :=
      Bool.eq_false_iff.mpr fun silent => not_asksForHistory_of_isSilent silent asks
    exact readable event (List.mem_filter.mpr ⟨among, by simp [speaks]⟩) asks
  · intro readable event among
    exact readable event (List.mem_of_mem_filter among)

theorem holdsWords_afterEvent (limits : Limits) (historyFile : String) (event : Event) (words : store.HoldsWords) :
    (store.afterEvent limits historyFile event).HoldsWords := by
  unfold Store.afterEvent
  cases event.key with
  | line text =>
      dsimp only
      split
      · exact words
      · exact holdsWords_answerLine limits event.files historyFile text words
  | interrupt | endOfInput => exact words

/-- On a store of words, an event that stays ends the conversation only by asking for an unreadable history. -/
theorem not_ends_of_holdsWords (words : store.HoldsWords) (stays : ¬event.key.Leaves)
    (readable : event.AsksForHistory → ∀ failure, ¬Unreadable event.files historyFile failure) (ending : Ending) :
    ¬event.Ends limits historyFile store ending := by
  intro ends
  cases ends with
  | endOfInput => exact stays trivial
  | leave asks => exact stays asks
  | unanswered _ unanswered =>
      obtain ⟨asks, unreadable⟩ := (unanswered_iff_of_holdsWords words).mp unanswered
      exact readable ⟨_, rfl, asks⟩ _ unreadable

/-- A conversation on a store of words goes on over events that stay, as long as the history is readable. -/
theorem goesOn_of_historyReadable {events : List Event} (words : store.HoldsWords)
    (stay : ∀ event ∈ events, ¬event.key.Leaves) (readable : HistoryReadable historyFile events) :
    GoesOn limits historyFile store events := by
  induction events generalizing store with
  | nil => trivial
  | cons event rest ih =>
      obtain ⟨first, later⟩ := List.forall_mem_cons.mp readable
      obtain ⟨stays, others⟩ := List.forall_mem_cons.mp stay
      exact ⟨not_ends_of_holdsWords words stays first, ih (holdsWords_afterEvent limits historyFile event words)
        others later⟩

theorem goesOn_heard {events : List Event} (words : store.HoldsWords)
    (readable : HistoryReadable historyFile (heard events)) : GoesOn limits historyFile store (heard events) :=
  goesOn_of_historyReadable words (fun _ => not_leaves_of_mem_heard) readable

namespace Console

theorem answerLine_of_leaves {files : Files} {text : String} (asks : AsksToLeave text) :
    answerLine limits files historyFile text store = ⟨.leave, store, []⟩ := by
  rw [answerLine, Command.ofLine?_eq_leave_iff.mpr asks]
  rfl

/-- A key that leaves is answered by the farewell. -/
theorem step_of_leaves (leaves : event.key.Leaves) :
    step limits historyFile store event = ([.shown farewell], .over (.exit 0) store) := by
  obtain ⟨key, files⟩ := event
  cases key with
  | line text =>
      have notBlank : ¬(Key.line text).isSilent = true := fun blank => Key.not_leaves_of_isSilent blank leaves
      rw [Key.isSilent] at notBlank
      simp [step, notBlank, answerLine_of_leaves leaves]
  | interrupt => exact leaves.elim
  | endOfInput => rfl

/-- The turns of a conversation are its rounds up to the key that leaves, and the farewell. -/
theorem turns_eq {events : List Event} (goesOn : GoesOn limits settings.historyFile store (heard events)) :
    turns limits settings store events =
      ⟨(rounds limits settings.historyFile store (heard events)).flatMap (roundOutputs limits settings) ++
        [promptWith settings (store.afterEvents limits settings.historyFile (heard events)), .shown farewell],
        .exit 0, store.afterEvents limits settings.historyFile (heard events)⟩ := by
  induction events generalizing store with
  | nil => rfl
  | cons event rest ih =>
      by_cases leaves : event.key.Leaves
      · rw [turns, step_of_leaves leaves, heard_cons_of_leaves leaves]
        rfl
      · rw [heard_cons_of_stays leaves] at goesOn ⊢
        obtain ⟨first, later⟩ := goesOn
        simp [turns, step_of_goesOn first, ih later, Transcript.after, rounds, roundOutputs, Store.afterEvents]

theorem tells_converse {events : List Event} (goesOn : GoesOn limits settings.historyFile store (heard events)) :
    (converse limits settings store events).Tells limits settings
      (rounds limits settings.historyFile store (heard events))
      (store.afterEvents limits settings.historyFile (heard events)) := by
  constructor <;> simp [converse, turns_eq goesOn, Transcript.after]

end Console

/-! ### Without the silent events -/

theorem afterEvent_of_isSilent (silent : event.key.isSilent = true) :
    store.afterEvent limits historyFile event = store := by
  obtain ⟨key, files⟩ := event
  cases key with
  | line text => exact if_pos silent
  | interrupt | endOfInput => rfl

/-- Silent events are rounds that leave no trace in the others. -/
theorem rounds_speaking (limits : Limits) (historyFile : String) (store : Store) (events : List Event) :
    rounds limits historyFile store (speaking events) =
        (rounds limits historyFile store events).filter (!·.2.key.isSilent) ∧
      store.afterEvents limits historyFile (speaking events) = store.afterEvents limits historyFile events := by
  induction events generalizing store with
  | nil => exact ⟨rfl, rfl⟩
  | cons event rest ih =>
      cases silent : event.key.isSilent with
      | true =>
          simpa [speaking, silent, rounds, Store.afterEvents, afterEvent_of_isSilent silent] using ih store
      | false =>
          simpa [speaking, silent, rounds, Store.afterEvents] using ih (store.afterEvent limits historyFile event)

/-! ### Other files -/

theorem afterEvent_congr (same : event.key = other.key) :
    store.afterEvent limits historyFile event = store.afterEvent limits historyFile other := by
  unfold Store.afterEvent
  rw [same]
  cases other.key with
  | line text =>
      dsimp only
      rw [store_answerLine_congr limits event.files other.files historyFile historyFile]
  | interrupt | endOfInput => rfl

theorem printed_congr (same : event.key = other.key)
    (history : event.AsksForHistory →
      History.answer event.files historyFile = History.answer other.files historyFile) :
    event.printed limits historyFile store = other.printed limits historyFile store := by
  obtain ⟨key, files⟩ := event
  obtain ⟨_, otherFiles⟩ := other
  obtain rfl : key = _ := same
  cases key with
  | line text =>
      have answered : answerLine limits files historyFile text store =
          answerLine limits otherFiles historyFile text store :=
        answerLine_congr fun asks => history ⟨text, rfl, asks⟩
      simp only [Event.printed, answered]
  | interrupt | endOfInput => rfl

/-- Two rounds are of one key on one store, and print the same unless they show different histories. -/
structure SameRound (limits : Limits) (historyFile : String) (round other : Store × Event) : Prop where
  store : round.1 = other.1
  key : round.2.key = other.2.key
  printed :
    (round.2.AsksForHistory →
      History.answer round.2.files historyFile = History.answer other.2.files historyFile) →
    round.2.printed limits historyFile round.1 = other.2.printed limits historyFile other.1

/-- The same keys make the same rounds, whatever files they find. -/
theorem forall₂_sameRound (limits : Limits) (historyFile : String) (store : Store) {events others : List Event}
    (same : others.map Event.key = events.map Event.key) :
    List.Forall₂ (SameRound limits historyFile) (rounds limits historyFile store events)
        (rounds limits historyFile store others) ∧
      store.afterEvents limits historyFile others = store.afterEvents limits historyFile events := by
  induction events generalizing store others with
  | nil =>
      obtain rfl := List.map_eq_nil_iff.mp same
      exact ⟨.nil, rfl⟩
  | cons event rest ih =>
      cases others with
      | nil => cases same
      | cons other others =>
          obtain ⟨first, later⟩ := List.cons.inj same
          obtain ⟨told, last⟩ := ih (store.afterEvent limits historyFile event) later
          have next : store.afterEvent limits historyFile other = store.afterEvent limits historyFile event :=
            afterEvent_congr first
          refine ⟨.cons ⟨rfl, first.symm, printed_congr first.symm⟩ ?_, ?_⟩
          · exact next ▸ told
          · simpa [Store.afterEvents, next] using last

/-! ### Completion words -/

/-- The stores on which a prompt is shown: those that the events meet, and the one behind them. -/
def promptedStores (limits : Limits) (historyFile : String) (store : Store) (events : List Event) : List Store :=
  (rounds limits historyFile store events).map Prod.fst ++ [store.afterEvents limits historyFile events]

theorem contains_afterEvent {name : String} (present : store.contains name = true) :
    (store.afterEvent limits historyFile event).contains name = true := by
  unfold Store.afterEvent
  cases event.key with
  | line text =>
      dsimp only
      split
      · exact present
      · unfold answerLine
        cases Command.ofLine? text with
        | some command => exact present
        | none => exact (extends_evaluate limits.nesting text store).keeps name present
  | interrupt | endOfInput => exact present

/-- A name stays in the store whatever events follow. -/
theorem contains_of_mem_promptedStores {events : List Event} {name : String}
    (present : store.contains name = true) :
    ∀ later ∈ promptedStores limits historyFile store events, later.contains name = true := by
  induction events generalizing store with
  | nil => simpa [promptedStores, rounds, Store.afterEvents] using present
  | cons event rest ih =>
      intro later among
      rcases List.mem_cons.mp among with rfl | among
      · exact present
      · exact ih (contains_afterEvent present) later among

/-- Every prompt offers the words of the prompts before it. -/
theorem pairwise_names_promptedStores (limits : Limits) (historyFile : String) (store : Store)
    (events : List Event) :
    (promptedStores limits historyFile store events).Pairwise fun earlier later => earlier.names ⊆ later.names := by
  induction events generalizing store with
  | nil => exact List.pairwise_singleton _ _
  | cons event rest ih =>
      refine List.Pairwise.cons ?_ (ih (store.afterEvent limits historyFile event))
      intro later among name offered
      rw [Store.mem_names_iff] at offered ⊢
      exact contains_of_mem_promptedStores (contains_afterEvent offered) later among

/-! ### What is seen of a conversation -/

/-- The completion words of a prompt. -/
def Output.completions? : Output → Option (List String)
  | prompted _ words => some words
  | _ => none

theorem stdout_roundOutputs (round : Store × Event) :
    (roundOutputs limits settings round).filterMap Output.stdout =
      round.2.printed limits settings.historyFile round.1 := by
  have notPrinted : (Console.promptWith settings round.1).stdout = none := rfl
  rw [roundOutputs, List.filterMap_append, List.filterMap_cons_none notPrinted, List.filterMap_map, List.filterMap_map]
  change List.filterMap (fun _ => none) _ ++ List.filterMap some _ = _
  simp

theorem completions_roundOutputs (round : Store × Event) :
    (roundOutputs limits settings round).filterMap Output.completions? = [round.1.names] := by
  have offered : (Console.promptWith settings round.1).completions? = some round.1.names := rfl
  rw [roundOutputs, List.filterMap_append, List.filterMap_cons_some offered, List.filterMap_map, List.filterMap_map]
  change round.1.names :: List.filterMap (fun _ => none) _ ++ List.filterMap (fun _ => none) _ = _
  simp

namespace Transcript.Tells

variable {transcript : Transcript} {told : List (Store × Event)} {last : Store}

theorem stdout (tells : transcript.Tells limits settings told last) :
    transcript.outputs.filterMap Output.stdout =
      Console.banner :: told.flatMap (fun round => round.2.printed limits settings.historyFile round.1) ++
        [Console.farewell] := by
  rw [tells.outputs, List.filterMap_append, List.filterMap_append, List.filterMap_flatMap]
  simp only [stdout_roundOutputs]
  rfl

theorem completions (tells : transcript.Tells limits settings told last) :
    transcript.outputs.filterMap Output.completions? = (told.map Prod.fst ++ [last]).map Store.names := by
  rw [tells.outputs, List.filterMap_append, List.filterMap_append, List.filterMap_flatMap]
  simp only [completions_roundOutputs, ← List.map_eq_flatMap, List.map_append, List.map_map]
  rfl

end Transcript.Tells

/-- An event that makes a round does not end the conversation on the store that it meets. -/
theorem not_ends_of_mem_rounds {events : List Event} (goesOn : GoesOn limits historyFile store events)
    {between : Store} (among : (between, event) ∈ rounds limits historyFile store events) (ending : Ending) :
    ¬event.Ends limits historyFile between ending := by
  induction events generalizing store with
  | nil => cases among
  | cons first rest ih =>
      rcases List.mem_cons.mp among with same | later
      · obtain ⟨rfl, rfl⟩ := Prod.mk.inj same
        exact goesOn.1 ending
      · exact ih goesOn.2 later

/-- A line that makes a round and is not blank has an answer. -/
theorem exists_answer_of_mem_rounds {events : List Event} (goesOn : GoesOn limits historyFile store events)
    {between : Store} {text : String} {files : Files} (notBlank : Text.isBlankText text = false)
    (among : (between, ⟨.line text, files⟩) ∈ rounds limits historyFile store events) :
    ∃ ok answer, (answerLine limits files historyFile text between).reply = .answer ok answer := by
  have goesOn := not_ends_of_mem_rounds goesOn among
  exact exists_answer (fun asks => goesOn _ (.leave asks)) fun _ unanswered =>
    goesOn _ (.unanswered notBlank unanswered)

/-- What is heard of the events that ask for something depends on their keys only. -/
theorem map_key_speaking_heard {events others : List Event}
    (same : (speaking others).map Event.key = (speaking events).map Event.key) :
    (speaking (heard others)).map Event.key = (speaking (heard events)).map Event.key := by
  rw [← heard_speaking, ← heard_speaking, map_key_heard, map_key_heard, same]

end Rounds

end Calculator
