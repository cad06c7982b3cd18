import Mews.Router.OpenaiStream

/-!
# Frames and chunks

An event of the stream ends with an empty line, whichever way its lines end.  The frames of
the reader are those events, however the bytes are cut into chunks, if the reader sees each
empty line as it comes and has room for it.
-/

namespace Mews

open Occurrences

/-! ## Events -/

/-- `\n\r\n`, an empty line after a line that ends otherwise. -/
def mixedDelimiter : List UInt8 := [10, 13, 10]

def blankLines : List (List UInt8) := [crlfDelimiter, lfDelimiter, mixedDelimiter]

def blankLineAt (bytes : List UInt8) : Option (List UInt8) :=
  blankLines.find? (·.isPrefixOf bytes)

/-- Where the first complete event ends, and the empty line after it. -/
def eventEnd (bytes : List UInt8) : Option (Nat × List UInt8) :=
  (firstPlace (fun rest => (blankLineAt rest).isSome) bytes).bind fun place =>
    (blankLineAt (bytes.drop place)).map fun delimiter => (place, delimiter)

/-- The first empty line is at this place. -/
structure FirstBlank (bytes : List UInt8) (place : Nat) (delimiter : List UInt8) : Prop where
  mem : delimiter ∈ blankLines
  stands : StandsAt delimiter bytes place
  first : ∀ earlier < place, ∀ other ∈ blankLines, ¬StandsAt other bytes earlier

section Finding

variable {bytes buffer more delimiter : List UInt8} {place frameEnd delimiterLen : Nat}

theorem ne_nil_of_mem_blankLines (hmem : delimiter ∈ blankLines) : delimiter ≠ [] := by
  rintro rfl
  revert hmem
  decide

theorem two_le_length (hmem : delimiter ∈ blankLines) : 2 ≤ delimiter.length := by
  revert delimiter
  decide

/-- No empty line is the beginning of another. -/
theorem blankLine_unique {left right : List UInt8} (hleft : left ∈ blankLines)
    (hright : right ∈ blankLines) (hstands : StandsAt left bytes place)
    (hother : StandsAt right bytes place) : left = right := by
  have hcases : ∀ left ∈ blankLines, ∀ right ∈ blankLines,
      left = right ∨ ¬left <+: right ∧ ¬right <+: left := by
    simp only [← List.isPrefixOf_iff_prefix]
    decide
  rcases hcases left hleft right hright with hsame | hapart
  · exact hsame
  · cases List.prefix_or_prefix_of_prefix hstands hother with
    | inl hbegins => exact absurd hbegins hapart.1
    | inr hbegins => exact absurd hbegins hapart.2

theorem blankLineAt_eq_none_iff :
    blankLineAt bytes = none ↔ ∀ delimiter ∈ blankLines, ¬delimiter <+: bytes := by
  rw [blankLineAt, List.find?_eq_none]
  simp only [List.isPrefixOf_iff_prefix]

theorem mem_of_blankLineAt (hblank : blankLineAt bytes = some delimiter) :
    delimiter ∈ blankLines ∧ delimiter <+: bytes := by
  rw [blankLineAt, List.find?_eq_some_iff_append] at hblank
  obtain ⟨hbegins, before, after, hlines, -⟩ := hblank
  rw [hlines]
  exact ⟨List.mem_append_right _ List.mem_cons_self, List.isPrefixOf_iff_prefix.mp hbegins⟩

theorem eventEnd_eq_none_iff :
    eventEnd bytes = none ↔
      ∀ delimiter ∈ blankLines, ∀ place, ¬StandsAt delimiter bytes place := by
  have hsome : ∀ place, firstPlace (fun rest => (blankLineAt rest).isSome) bytes = some place →
      ∃ delimiter, blankLineAt (bytes.drop place) = some delimiter := by
    intro place hplace
    exact Option.isSome_iff_exists.mp (firstPlace_eq_some_iff.mp hplace).2.1
  rw [eventEnd]
  cases hplace : firstPlace (fun rest => (blankLineAt rest).isSome) bytes with
  | none =>
      apply iff_of_true rfl
      rw [firstPlace_eq_none_iff] at hplace
      intro delimiter hmem place hstands
      have hlength := hstands.length_le (ne_nil_of_mem_blankLines hmem)
      have htwo := two_le_length hmem
      have hnow := hplace place (by omega)
      rw [Option.isSome_eq_false_iff, Option.isNone_iff_eq_none, blankLineAt_eq_none_iff] at hnow
      exact hnow delimiter hmem hstands
  | some place =>
      obtain ⟨delimiter, hdelimiter⟩ := hsome place hplace
      obtain ⟨hmem, hbegins⟩ := mem_of_blankLineAt hdelimiter
      rw [Option.bind_some, hdelimiter]
      apply iff_of_false (Option.some_ne_none _)
      intro hnone
      exact hnone delimiter hmem place hbegins

theorem eventEnd_eq_some_iff :
    eventEnd bytes = some (place, delimiter) ↔ FirstBlank bytes place delimiter := by
  rw [eventEnd, Option.bind_eq_some_iff]
  constructor
  · rintro ⟨found, hfound, hmapped⟩
    obtain ⟨_, hdelimiter, hpair⟩ := Option.map_eq_some_iff.mp hmapped
    cases hpair
    obtain ⟨hmem, hbegins⟩ := mem_of_blankLineAt hdelimiter
    refine ⟨hmem, hbegins, fun earlier hearlier other hother hstands => ?_⟩
    have hnow := (firstPlace_eq_some_iff.mp hfound).2.2 earlier hearlier
    rw [Option.isSome_eq_false_iff, Option.isNone_iff_eq_none, blankLineAt_eq_none_iff] at hnow
    exact hnow other hother hstands
  · intro hblank
    have hfound : ∃ found, blankLineAt (bytes.drop place) = some found := by
      rw [← Option.ne_none_iff_exists', ne_eq, blankLineAt_eq_none_iff]
      intro hnone
      exact hnone delimiter hblank.mem hblank.stands
    obtain ⟨found, hfound⟩ := hfound
    obtain ⟨hmem, hbegins⟩ := mem_of_blankLineAt hfound
    obtain rfl := blankLine_unique hmem hblank.mem hbegins hblank.stands
    have hlength := hblank.stands.length_le (ne_nil_of_mem_blankLines hmem)
    have htwo := two_le_length hmem
    refine ⟨place, firstPlace_eq_some_iff.mpr ⟨by omega, ?_, fun earlier hearlier => ?_⟩, ?_⟩
    · rw [hfound, Option.isSome_some]
    · rw [Option.isSome_eq_false_iff, Option.isNone_iff_eq_none, blankLineAt_eq_none_iff]
      exact fun other hother => hblank.first earlier hearlier other hother
    · rw [hfound, Option.map_some]

theorem FirstBlank.length_le (hblank : FirstBlank bytes place delimiter) :
    place + delimiter.length ≤ bytes.length :=
  hblank.stands.length_le (ne_nil_of_mem_blankLines hblank.mem)

theorem length_drop_eventEnd_lt (hevent : eventEnd bytes = some (place, delimiter)) :
    (bytes.drop (place + delimiter.length)).length < bytes.length := by
  have hblank := eventEnd_eq_some_iff.mp hevent
  have hlength := hblank.length_le
  have htwo := two_le_length hblank.mem
  rw [List.length_drop]
  omega

/-! ## Frames -/

theorem crlf_mem : crlfDelimiter ∈ blankLines := by decide

theorem lf_mem : lfDelimiter ∈ blankLines := by decide

theorem sseFrameEnd_eq_none_iff :
    sseFrameEnd bytes = none ↔
      (∀ place, ¬StandsAt crlfDelimiter bytes place) ∧
        ∀ place, ¬StandsAt lfDelimiter bytes place := by
  rw [← position_eq_none_iff (by decide), ← position_eq_none_iff (by decide), sseFrameEnd]
  cases position crlfDelimiter bytes <;> simp

/-- The two ways in which a frame is found. -/
theorem sseFrameEnd_cases (hframe : sseFrameEnd bytes = some (frameEnd, delimiterLen)) :
    delimiterLen = 4 ∧ StandsAt crlfDelimiter bytes frameEnd ∧
        (∀ earlier < frameEnd, ¬StandsAt crlfDelimiter bytes earlier) ∨
      delimiterLen = 2 ∧ StandsAt lfDelimiter bytes frameEnd ∧
        (∀ earlier < frameEnd, ¬StandsAt lfDelimiter bytes earlier) ∧
        ∀ place, ¬StandsAt crlfDelimiter bytes place := by
  rw [sseFrameEnd] at hframe
  cases hcrlf : position crlfDelimiter bytes with
  | some place =>
      rw [hcrlf] at hframe
      cases hframe
      obtain ⟨hstands, hfirst⟩ := (position_eq_some_iff (by decide)).mp hcrlf
      exact .inl ⟨rfl, hstands, hfirst⟩
  | none =>
      simp only [hcrlf] at hframe
      obtain ⟨place, hplace, hpair⟩ := Option.map_eq_some_iff.mp hframe
      cases hpair
      obtain ⟨hstands, hfirst⟩ := (position_eq_some_iff (by decide)).mp hplace
      exact .inr ⟨rfl, hstands, hfirst, (position_eq_none_iff (by decide)).mp hcrlf⟩

theorem sseFrameEnd_stands (hframe : sseFrameEnd bytes = some (frameEnd, delimiterLen)) :
    ∃ delimiter ∈ blankLines, delimiter.length = delimiterLen ∧
      StandsAt delimiter bytes frameEnd := by
  rcases sseFrameEnd_cases hframe with ⟨rfl, hstands, -⟩ | ⟨rfl, hstands, -⟩
  · exact ⟨crlfDelimiter, crlf_mem, rfl, hstands⟩
  · exact ⟨lfDelimiter, lf_mem, rfl, hstands⟩

/-- A frame does not end before the first event. -/
theorem FirstBlank.le_frameEnd (hblank : FirstBlank (buffer ++ more) place delimiter)
    (hframe : sseFrameEnd buffer = some (frameEnd, delimiterLen)) : place ≤ frameEnd := by
  obtain ⟨other, hmem, -, hstands⟩ := sseFrameEnd_stands hframe
  by_contra hearlier
  exact hblank.first frameEnd (Nat.lt_of_not_le hearlier) other hmem (hstands.append more)

/-- The reader has room for the event and sees its empty line as the first. -/
structure Separated (bytes : List UInt8) (place : Nat) (delimiter : List UInt8) : Prop where
  seen : delimiter ≠ mixedDelimiter
  room : place + delimiter.length ≤ maxSseEventBytes + 1
  ahead : delimiter = lfDelimiter →
    position crlfDelimiter (bytes.drop (place + delimiter.length)) = none

theorem eq_crlf_or_lf (hmem : delimiter ∈ blankLines) (hseen : delimiter ≠ mixedDelimiter) :
    delimiter = crlfDelimiter ∨ delimiter = lfDelimiter := by
  revert delimiter
  decide

/-- An event that is in the buffer is found. -/
theorem FirstBlank.frame_ne_none (hblank : FirstBlank (buffer ++ more) place delimiter)
    (hseen : delimiter ≠ mixedDelimiter) (hwithin : place + delimiter.length ≤ buffer.length) :
    sseFrameEnd buffer ≠ none := by
  rw [ne_eq, sseFrameEnd_eq_none_iff]
  rintro ⟨hcrlf, hlf⟩
  have hstands := hblank.stands.of_append hwithin
  cases eq_crlf_or_lf hblank.mem hseen with
  | inl hsame => exact hcrlf place (hsame ▸ hstands)
  | inr hsame => exact hlf place (hsame ▸ hstands)

/-- What is found is the event. -/
theorem FirstBlank.frame_eq (hblank : FirstBlank (buffer ++ more) place delimiter)
    (hseparated : Separated (buffer ++ more) place delimiter)
    (hframe : sseFrameEnd buffer = some (frameEnd, delimiterLen)) :
    frameEnd = place ∧ delimiterLen = delimiter.length := by
  have hle := hblank.le_frameEnd hframe
  have hplace : frameEnd = place := by
    by_contra hother
    have hlater : place < frameEnd := Nat.lt_of_le_of_ne hle (Ne.symm hother)
    cases eq_crlf_or_lf hblank.mem hseparated.seen with
    | inl hcrlf =>
        subst hcrlf
        -- The delimiter of the frame is not within that of the event.
        have hstands := hblank.stands
        have hthird : (buffer ++ more)[place + 2]? = some 13 := hstands.getElem? rfl
        rcases sseFrameEnd_cases hframe with ⟨-, hfound, hfirst⟩ | ⟨-, hfound, -, hnone⟩
        · have hlength := hfound.length_le (by decide)
          have hwithin : place + crlfDelimiter.length ≤ buffer.length := by omega
          exact hfirst place hlater (hstands.of_append hwithin)
        · have hlength := hfound.length_le (by decide)
          have hstart : (buffer ++ more)[frameEnd + 1]? = some 10 :=
            (hfound.append more).getElem? rfl
          have hapart : frameEnd ≠ place + 1 := by
            rintro rfl
            rw [hthird] at hstart
            exact absurd hstart (by decide)
          have hlf : lfDelimiter.length = 2 := rfl
          have hcrlf : crlfDelimiter.length = 4 := rfl
          exact hnone place (hstands.of_append (by omega))
    | inr hlf =>
        subst hlf
        have hstands := hblank.stands
        have hsecond : (buffer ++ more)[place + 1]? = some 10 := hstands.getElem? rfl
        rcases sseFrameEnd_cases hframe with ⟨-, hfound, -⟩ | ⟨-, hfound, hfirst, -⟩
        · have hstart : (buffer ++ more)[frameEnd + 0]? = some 13 :=
            (hfound.append more).getElem? rfl
          have hapart : frameEnd ≠ place + 1 := by
            rintro rfl
            rw [Nat.add_zero, hsecond] at hstart
            exact absurd hstart (by decide)
          have hlf : lfDelimiter.length = 2 := rfl
          apply (position_eq_none_iff (by decide)).mp (hseparated.ahead rfl)
            (frameEnd - (place + lfDelimiter.length))
          rw [standsAt_drop, Nat.add_sub_cancel' (by omega)]
          exact hfound.append more
        · have hlength := hfound.length_le (by decide)
          exact hfirst place hlater (hstands.of_append (by omega))
  refine ⟨hplace, ?_⟩
  obtain ⟨other, hmem, rfl, hfound⟩ := sseFrameEnd_stands hframe
  rw [hplace] at hfound
  rw [blankLine_unique hmem hblank.mem (hfound.append more) hblank.stands]

end Finding

/-! ## Reading one event after the other -/

section Reading

variable (library : StreamLibrary) (stateProvider stateModel : String)

/-- What the reader is to send when it has all bytes: the complete events are read one after
the other, up to one that is too large or ends the stream. -/
def readEvents (bytes : List UInt8) : StreamOutput :=
  match _hevent : eventEnd bytes with
  | none =>
      .fails (if maxSseEventBytes < bytes.length then sseEventTooLarge
        else .invalidResponse "OpenAI stream ended before response.completed")
  | some (place, delimiter) =>
      if maxSseEventBytes < place then .fails sseEventTooLarge
      else
        match readFrame library stateProvider stateModel (bytes.take place) with
        | .last items => { blocks := [bytes.take place], items }
        | .next item =>
            (readEvents (bytes.drop (place + delimiter.length))).after (bytes.take place) item
termination_by bytes.length
decreasing_by exact length_drop_eventEnd_lt _hevent

/-- The complete events within the size limit that are to be read. -/
def completeEvents (bytes : List UInt8) : List (List UInt8) :=
  (readEvents library stateProvider stateModel bytes).blocks

/-- However the bytes are cut, the same is sent as for the whole at once, and each complete
event is read once. -/
structure ChunkIndependent (bytes : List UInt8) : Prop where
  alike : ∀ chunks : List (List UInt8), chunks.flatten = bytes →
    (openaiResponseStream library stateProvider stateModel (chunks.map .ok)).items =
      (openaiResponseStream library stateProvider stateModel [.ok bytes]).items
  once : ∀ chunks : List (List UInt8), chunks.flatten = bytes →
    (openaiResponseStream library stateProvider stateModel (chunks.map .ok)).blocks =
      completeEvents library stateProvider stateModel bytes

/-- Every event that is to be read is separated from the next. -/
inductive WellFramed : List UInt8 → Prop
  | pending {bytes : List UInt8} (hnone : eventEnd bytes = none) : WellFramed bytes
  | oversized {bytes : List UInt8} {place : Nat} {delimiter : List UInt8}
      (hevent : eventEnd bytes = some (place, delimiter)) (hlarge : maxSseEventBytes < place) :
      WellFramed bytes
  | last {bytes : List UInt8} {place : Nat} {delimiter : List UInt8} {items : List StreamItem}
      (hevent : eventEnd bytes = some (place, delimiter))
      (hseparated : Separated bytes place delimiter)
      (hlast : readFrame library stateProvider stateModel (bytes.take place) = .last items) :
      WellFramed bytes
  | next {bytes : List UInt8} {place : Nat} {delimiter : List UInt8}
      {item : Option ModelStreamEvent} (hevent : eventEnd bytes = some (place, delimiter))
      (hseparated : Separated bytes place delimiter)
      (hnext : readFrame library stateProvider stateModel (bytes.take place) = .next item)
      (hrest : WellFramed (bytes.drop (place + delimiter.length))) : WellFramed bytes

variable {library stateProvider stateModel} {bytes buffer more delimiter : List UInt8}
  {place frameEnd delimiterLen : Nat}

theorem readEvents_of_none (hnone : eventEnd bytes = none) :
    readEvents library stateProvider stateModel bytes =
      .fails (if maxSseEventBytes < bytes.length then sseEventTooLarge
        else .invalidResponse "OpenAI stream ended before response.completed") := by
  rw [readEvents]
  split
  · rfl
  · rename_i hevent
    rw [hnone] at hevent
    exact absurd hevent (Option.some_ne_none _).symm

theorem readEvents_of_some (hevent : eventEnd bytes = some (place, delimiter)) :
    readEvents library stateProvider stateModel bytes =
      if maxSseEventBytes < place then .fails sseEventTooLarge
      else
        match readFrame library stateProvider stateModel (bytes.take place) with
        | .last items => { blocks := [bytes.take place], items }
        | .next item =>
            (readEvents library stateProvider stateModel
              (bytes.drop (place + delimiter.length))).after (bytes.take place) item := by
  rw [readEvents]
  split
  · rename_i hnone
    rw [hevent] at hnone
    exact absurd hnone (Option.some_ne_none _)
  · rename_i found other hfound
    rw [hevent] at hfound
    cases hfound
    rfl

theorem Separated.place_le (hseparated : Separated bytes place delimiter)
    (hevent : eventEnd bytes = some (place, delimiter)) : place < maxSseEventBytes := by
  have hroom := hseparated.room
  have htwo := two_le_length (eventEnd_eq_some_iff.mp hevent).mem
  omega

/-- A buffer without a frame that is too long begins with an event that is too large. -/
theorem WellFramed.readEvents_long
    (hwell : WellFramed library stateProvider stateModel (buffer ++ more))
    (hframe : sseFrameEnd buffer = none) (hlong : maxSseEventBytes < buffer.length) :
    readEvents library stateProvider stateModel (buffer ++ more) = .fails sseEventTooLarge := by
  have hseparates : ∀ place delimiter, eventEnd (buffer ++ more) = some (place, delimiter) →
      ¬Separated (buffer ++ more) place delimiter := by
    intro place delimiter hevent hseparated
    have hroom := hseparated.room
    exact (eventEnd_eq_some_iff.mp hevent).frame_ne_none hseparated.seen (by omega) hframe
  cases hwell with
  | pending hnone =>
      rw [readEvents_of_none hnone, if_pos]
      rw [List.length_append]
      omega
  | oversized hevent hlarge => rw [readEvents_of_some hevent, if_pos hlarge]
  | last hevent hseparated => exact absurd hseparated (hseparates _ _ hevent)
  | next hevent hseparated => exact absurd hseparated (hseparates _ _ hevent)

/-- A short buffer without a frame, to which nothing comes, has no event. -/
theorem WellFramed.eventEnd_eq_none (hwell : WellFramed library stateProvider stateModel buffer)
    (hframe : sseFrameEnd buffer = none) (hshort : buffer.length ≤ maxSseEventBytes) :
    eventEnd buffer = none := by
  have hseparates : ∀ place delimiter, eventEnd buffer = some (place, delimiter) →
      ¬Separated buffer place delimiter := by
    intro place delimiter hevent hseparated
    have hblank := eventEnd_eq_some_iff.mp hevent
    have hlength := hblank.length_le
    rw [← List.append_nil buffer] at hblank
    exact hblank.frame_ne_none hseparated.seen hlength hframe
  cases hwell with
  | pending hnone => exact hnone
  | oversized hevent hlarge =>
      have hlength := (eventEnd_eq_some_iff.mp hevent).length_le
      omega
  | last hevent hseparated => exact absurd hseparated (hseparates _ _ hevent)
  | next hevent hseparated => exact absurd hseparated (hseparates _ _ hevent)

/-- The inner loop reads the events that are complete. -/
theorem drainFrames_eq {read : List UInt8 → StreamOutput} {fuel : Nat}
    (hread : ∀ rest, sseFrameEnd rest = none →
      WellFramed library stateProvider stateModel (rest ++ more) →
      read rest = readEvents library stateProvider stateModel (rest ++ more))
    (hfuel : buffer.length ≤ fuel)
    (hwell : WellFramed library stateProvider stateModel (buffer ++ more)) :
    drainFrames library stateProvider stateModel read fuel buffer =
      readEvents library stateProvider stateModel (buffer ++ more) := by
  induction fuel generalizing buffer with
  | zero =>
      obtain rfl := List.length_eq_zero_iff.mp (Nat.le_zero.mp hfuel)
      exact hread [] rfl hwell
  | succ fuel ih =>
      rw [drainFrames]
      cases hframe : sseFrameEnd buffer with
      | none => exact hread buffer hframe hwell
      | some found =>
          obtain ⟨frameEnd, delimiterLen⟩ := found
          have hbuffer : frameEnd + delimiterLen ≤ buffer.length := by
            obtain ⟨other, hmem, rfl, hstands⟩ := sseFrameEnd_stands hframe
            exact hstands.length_le (ne_nil_of_mem_blankLines hmem)
          have htake : (buffer ++ more).take frameEnd = buffer.take frameEnd :=
            List.take_append_of_le_length (by omega)
          cases hwell with
          | pending hnone =>
              obtain ⟨other, hmem, -, hstands⟩ := sseFrameEnd_stands hframe
              exact absurd (hstands.append more) (eventEnd_eq_none_iff.mp hnone other hmem _)
          | oversized hevent hlarge =>
              have hle := (eventEnd_eq_some_iff.mp hevent).le_frameEnd hframe
              rw [readEvents_of_some hevent, if_pos hlarge]
              simp only
              rw [if_pos (Nat.lt_of_lt_of_le hlarge hle)]
          | last hevent hseparated hlast =>
              have hplace := hseparated.place_le hevent
              obtain ⟨rfl, rfl⟩ := (eventEnd_eq_some_iff.mp hevent).frame_eq hseparated hframe
              rw [readEvents_of_some hevent, if_neg (Nat.not_lt_of_gt hplace), hlast]
              rw [htake] at hlast ⊢
              simp only
              rw [if_neg (Nat.not_lt_of_gt hplace), hlast]
          | next hevent hseparated hnext hrest =>
              have hplace := hseparated.place_le hevent
              have htwo := two_le_length (eventEnd_eq_some_iff.mp hevent).mem
              obtain ⟨rfl, rfl⟩ := (eventEnd_eq_some_iff.mp hevent).frame_eq hseparated hframe
              rw [readEvents_of_some hevent, if_neg (Nat.not_lt_of_gt hplace), hnext]
              rw [htake] at hnext ⊢
              rw [List.drop_append_of_le_length hbuffer] at hrest ⊢
              simp only
              rw [if_neg (Nat.not_lt_of_gt hplace), hnext]
              simp only
              rw [ih _ hrest]
              rw [List.length_drop]
              omega

/-- What the reader sends from a buffer without a frame. -/
theorem readChunks_eq (chunks : List (List UInt8)) (hframe : sseFrameEnd buffer = none)
    (hshort : buffer.length ≤ maxSseEventBytes)
    (hwell : WellFramed library stateProvider stateModel (buffer ++ chunks.flatten)) :
    readChunks library stateProvider stateModel (chunks.map .ok) buffer =
      readEvents library stateProvider stateModel (buffer ++ chunks.flatten) := by
  induction chunks generalizing buffer with
  | nil =>
      rw [List.flatten_nil, List.append_nil] at hwell ⊢
      rw [readEvents_of_none (hwell.eventEnd_eq_none hframe hshort),
        if_neg (Nat.not_lt_of_le hshort)]
      rfl
  | cons chunk chunks ih =>
      rw [List.flatten_cons, ← List.append_assoc] at hwell ⊢
      rw [List.map_cons, readChunks]
      apply drainFrames_eq _ (Nat.le_refl _) hwell
      intro rest hrest hwellRest
      by_cases hlong : maxSseEventBytes < rest.length
      · rw [if_pos hlong, hwellRest.readEvents_long hrest hlong]
      · rw [if_neg hlong]
        exact ih hrest (Nat.le_of_not_lt hlong) hwellRest

theorem WellFramed.chunkIndependent (hwell : WellFramed library stateProvider stateModel bytes) :
    ChunkIndependent library stateProvider stateModel bytes := by
  have hreads : ∀ chunks : List (List UInt8), chunks.flatten = bytes →
      readChunks library stateProvider stateModel (chunks.map .ok) [] =
        readEvents library stateProvider stateModel bytes := by
    rintro chunks rfl
    exact readChunks_eq chunks rfl (Nat.zero_le _) hwell
  constructor
  · intro chunks hchunks
    have hwhole := hreads [bytes] (by rw [List.flatten_singleton])
    rw [List.map_singleton] at hwhole
    rw [openaiResponseStream, openaiResponseStream, hreads chunks hchunks, hwhole]
  · intro chunks hchunks
    rw [openaiResponseStream, hreads chunks hchunks, completeEvents]

/-! ## Where the cut makes a difference -/

/-- The frame that is read first from a buffer is the one that is found first. -/
theorem head?_blocks_drainFrames {read : List UInt8 → StreamOutput} {fuel : Nat}
    (hread : ∀ rest, (read rest).blocks = []) {block : List UInt8}
    (hblock : (drainFrames library stateProvider stateModel read fuel buffer).blocks.head? =
      some block) :
    ∃ frameEnd delimiterLen, sseFrameEnd buffer = some (frameEnd, delimiterLen) ∧
      block = buffer.take frameEnd := by
  cases fuel with
  | zero =>
      rw [drainFrames, hread] at hblock
      exact absurd hblock (Option.some_ne_none _).symm
  | succ fuel =>
      rw [drainFrames] at hblock
      cases hframe : sseFrameEnd buffer with
      | none =>
          simp only [hframe, hread] at hblock
          exact absurd hblock (Option.some_ne_none _).symm
      | some found =>
          obtain ⟨frameEnd, delimiterLen⟩ := found
          refine ⟨frameEnd, delimiterLen, rfl, ?_⟩
          simp only [hframe] at hblock
          split_ifs at hblock with hlarge
          · exact absurd hblock (Option.some_ne_none _).symm
          · cases hread : readFrame library stateProvider stateModel (buffer.take frameEnd) with
            | last items =>
                simp only [hread] at hblock
                exact (Option.some_inj.mp hblock).symm
            | next item =>
                simp only [hread] at hblock
                exact (Option.some_inj.mp hblock).symm

/-- Before its last byte has come no frame is found. -/
theorem FirstBlank.sseFrameEnd_take (hblank : FirstBlank bytes place delimiter) {length : Nat}
    (hlength : length < place + delimiter.length) : sseFrameEnd (bytes.take length) = none := by
  have hapart : ∀ other ∈ blankLines, other ≠ mixedDelimiter → ∀ found,
      ¬StandsAt other (bytes.take length) found := by
    intro other hmem hseen found hfound
    have hwithin := hfound.length_le (ne_nil_of_mem_blankLines hmem)
    rw [List.length_take] at hwithin
    have hwhole : StandsAt other bytes found := by
      have happend := hfound.append (bytes.drop length)
      rw [List.take_append_drop] at happend
      exact happend
    have hle : place ≤ found := by
      by_contra hearlier
      exact hblank.first found (Nat.lt_of_not_le hearlier) other hmem hwhole
    have hlater : place ≠ found := by
      rintro rfl
      rw [blankLine_unique hmem hblank.mem hwhole hblank.stands] at hwithin
      omega
    have hcrlf : crlfDelimiter.length = 4 := rfl
    have hlf : lfDelimiter.length = 2 := rfl
    have hmixed : mixedDelimiter.length = 3 := rfl
    have htwo := two_le_length hmem
    have hfour : delimiter.length ≤ 4 := by
      have hlengths : ∀ delimiter ∈ blankLines, delimiter.length ≤ 4 := by decide
      exact hlengths delimiter hblank.mem
    -- Only two line feeds fit, behind the first byte of the empty line.
    have hnext : found = place + 1 := by omega
    have hsame : delimiter = crlfDelimiter := by
      by_contra hother
      have hthree : delimiter.length ≤ 3 := by
        have hlengths : ∀ delimiter ∈ blankLines, delimiter ≠ crlfDelimiter →
            delimiter.length ≤ 3 := by decide
        exact hlengths delimiter hblank.mem hother
      omega
    have hpair : other = lfDelimiter := by
      apply (eq_crlf_or_lf hmem hseen).resolve_left
      rintro rfl
      rw [hsame] at hlength
      omega
    subst hsame hpair hnext
    have hthird : bytes[place + 2]? = some 13 := hblank.stands.getElem? rfl
    have hsecond : bytes[place + 1 + 1]? = some 10 := hwhole.getElem? rfl
    rw [hthird] at hsecond
    exact absurd hsecond (by decide)
  rw [sseFrameEnd_eq_none_iff]
  exact ⟨hapart _ crlf_mem (by decide), hapart _ lf_mem (by decide)⟩

/-- A first event that is always read is separated from the next. -/
theorem separated_of_once (hevent : eventEnd bytes = some (place, delimiter))
    (honce : ∀ chunks : List (List UInt8), chunks.flatten = bytes →
      (readChunks library stateProvider stateModel (chunks.map .ok) []).blocks.head? =
        some (bytes.take place)) : Separated bytes place delimiter := by
  have hblank := eventEnd_eq_some_iff.mp hevent
  have hlength := hblank.length_le
  have hnothing : ∀ rest : List UInt8,
      (if maxSseEventBytes < rest.length then StreamOutput.fails sseEventTooLarge
        else readChunks library stateProvider stateModel [] rest).blocks = [] := by
    intro rest
    split_ifs <;> rfl
  -- All bytes at once.
  have hfirst := honce [bytes] (by rw [List.flatten_singleton])
  rw [List.map_singleton, readChunks, List.nil_append] at hfirst
  obtain ⟨frameEnd, delimiterLen, hframe, htaken⟩ := head?_blocks_drainFrames hnothing hfirst
  obtain ⟨other, hmem, -, hstands⟩ := sseFrameEnd_stands hframe
  have hother := hstands.length_le (ne_nil_of_mem_blankLines hmem)
  obtain rfl : place = frameEnd := by
    have hlengths := congrArg List.length htaken
    rw [List.length_take, List.length_take] at hlengths
    omega
  refine ⟨?_, ?_, ?_⟩
  · rintro rfl
    rcases sseFrameEnd_cases hframe with ⟨-, hfound, -⟩ | ⟨-, hfound, -⟩
    · exact absurd (blankLine_unique crlf_mem hblank.mem hfound hblank.stands) (by decide)
    · exact absurd (blankLine_unique lf_mem hblank.mem hfound hblank.stands) (by decide)
  · -- The last byte of the empty line comes alone.
    by_contra hroom
    have htwo := two_le_length hblank.mem
    have hcut := honce [bytes.take (place + delimiter.length - 1),
      bytes.drop (place + delimiter.length - 1)] (by
        rw [List.flatten_cons, List.flatten_singleton, List.take_append_drop])
    rw [List.map_cons, readChunks, List.nil_append] at hcut
    have hpending := @FirstBlank.sseFrameEnd_take _ _ _ hblank (place + delimiter.length - 1)
      (by omega)
    have hlong : maxSseEventBytes < (bytes.take (place + delimiter.length - 1)).length := by
      rw [List.length_take]
      omega
    cases hfuel : (bytes.take (place + delimiter.length - 1)).length with
    | zero =>
        rw [hfuel] at hlong
        exact absurd hlong (Nat.not_lt_zero _)
    | succ fuel =>
        rw [hfuel, drainFrames, hpending] at hcut
        simp only at hcut
        rw [if_pos hlong] at hcut
        exact absurd hcut (Option.some_ne_none _).symm
  · rintro rfl
    rw [position_eq_none_iff (by decide)]
    intro later hlater
    rw [standsAt_drop] at hlater
    rcases sseFrameEnd_cases hframe with ⟨-, hfound, -⟩ | ⟨-, -, -, hnone⟩
    · exact absurd (blankLine_unique crlf_mem hblank.mem hfound hblank.stands) (by decide)
    · exact hnone _ hlater

/-- A chunk that is an event with its empty line is read, and the buffer is empty again. -/
theorem readChunks_event (hevent : eventEnd bytes = some (place, delimiter))
    (hseparated : Separated bytes place delimiter) {item : Option ModelStreamEvent}
    (hnext : readFrame library stateProvider stateModel (bytes.take place) = .next item)
    (chunks : List (Except String (List UInt8))) :
    readChunks library stateProvider stateModel
        (.ok (bytes.take (place + delimiter.length)) :: chunks) [] =
      (readChunks library stateProvider stateModel chunks []).after (bytes.take place) item := by
  have hblank := eventEnd_eq_some_iff.mp hevent
  have hlength := hblank.length_le
  have htwo := two_le_length hblank.mem
  have htaken : (bytes.take (place + delimiter.length)).length = place + delimiter.length := by
    rw [List.length_take, Nat.min_eq_left hlength]
  have hframe : sseFrameEnd (bytes.take (place + delimiter.length)) =
      some (place, delimiter.length) := by
    rw [← List.take_append_drop (place + delimiter.length) bytes] at hblank hseparated
    cases hfound : sseFrameEnd (bytes.take (place + delimiter.length)) with
    | none =>
        exact absurd hfound (hblank.frame_ne_none hseparated.seen (Nat.le_of_eq htaken.symm))
    | some found =>
        obtain ⟨frameEnd, delimiterLen⟩ := found
        obtain ⟨rfl, rfl⟩ := hblank.frame_eq hseparated hfound
        rfl
  have hplace := hseparated.place_le hevent
  have hblock : (bytes.take (place + delimiter.length)).take place = bytes.take place := by
    rw [List.take_take, Nat.min_eq_left (by omega)]
  have hempty : (bytes.take (place + delimiter.length)).drop (place + delimiter.length) = [] :=
    List.drop_eq_nil_of_le (Nat.le_of_eq htaken)
  rw [readChunks, List.nil_append, htaken]
  obtain ⟨fuel, hfuel⟩ : ∃ fuel, place + delimiter.length = fuel + 1 :=
    ⟨place + delimiter.length - 1, by omega⟩
  conv_lhs => arg 5; rw [hfuel]
  rw [drainFrames, hframe]
  simp only
  rw [if_neg (Nat.not_lt_of_gt hplace), hblock, hnext, hempty]
  simp only
  congr 1
  cases fuel <;> rfl

theorem wellFramed_of_once
    (honce : ∀ chunks : List (List UInt8), chunks.flatten = bytes →
      (readChunks library stateProvider stateModel (chunks.map .ok) []).blocks =
        (readEvents library stateProvider stateModel bytes).blocks) :
    WellFramed library stateProvider stateModel bytes := by
  induction hlength : bytes.length using Nat.strongRecOn generalizing bytes with
  | ind length ih =>
      cases hevent : eventEnd bytes with
      | none => exact .pending hevent
      | some found =>
          obtain ⟨place, delimiter⟩ := found
          by_cases hlarge : maxSseEventBytes < place
          · exact .oversized hevent hlarge
          rw [readEvents_of_some hevent, if_neg hlarge] at honce
          have hseparated : Separated bytes place delimiter := by
            apply separated_of_once hevent
            intro chunks hchunks
            rw [honce chunks hchunks]
            cases readFrame library stateProvider stateModel (bytes.take place) <;> rfl
          cases hread : readFrame library stateProvider stateModel (bytes.take place) with
          | last items => exact .last hevent hseparated hread
          | next item =>
              apply WellFramed.next hevent hseparated hread
              apply ih _ (hlength ▸ length_drop_eventEnd_lt hevent) _ rfl
              rintro chunks hchunks
              have hwhole := honce (bytes.take (place + delimiter.length) :: chunks) (by
                rw [List.flatten_cons, hchunks, List.take_append_drop])
              rw [List.map_cons, readChunks_event hevent hseparated hread, hread] at hwhole
              exact (List.cons.inj hwhole).2

/-- A stream is sent alike however it is cut, and its events are read once, if and only if its
events are separated. -/
theorem openai_stream_chunk_independent (library : StreamLibrary)
    (stateProvider stateModel : String) (bytes : List UInt8) :
    ChunkIndependent library stateProvider stateModel bytes ↔
      WellFramed library stateProvider stateModel bytes := by
  constructor
  · intro hindependent
    apply wellFramed_of_once
    exact hindependent.once
  · exact WellFramed.chunkIndependent

end Reading

/-! ## Two events with different line ends -/

namespace MixedEnds

def library : StreamLibrary where
  fromStr := fun text =>
    if text = "1" then
      .ok (.object [("delta", .string "hi"), ("type", .string "response.output_text.delta")])
    else if text = "2" then .ok (.object [("type", .string "response.completed")])
    else .error "expected value"
  utf8Error := fun _ => ""

/-- A text, and after it the end of the response in lines of the other kind. -/
def first : List UInt8 := "data: 1\n\n".toUTF8.toList

def second : List UInt8 := "data: 2\r\n\r\n".toUTF8.toList

/-- In two chunks the response is complete, in one it is not. -/
theorem not_independent :
    ¬∀ bytes, ChunkIndependent library "openai" "gpt" bytes := by
  intro hindependent
  have hcut := (hindependent (first ++ second)).alike [first, second] (by
    rw [List.flatten_cons, List.flatten_singleton])
  revert hcut
  with_unfolding_all decide

end MixedEnds

end Mews
