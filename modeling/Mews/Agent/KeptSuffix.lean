import Mews.Agent.ContextBudget

/-!
# The history that a budget keeps

`apply_context_budget` looks at the history from its end.  What it keeps is the whole
history, or the longest suffix within the budget that begins with a message of the user, and
what is kept once is kept again.
-/

namespace Mews

open Protocol HostProtocol

namespace ModelRequest

variable (request : ModelRequest)

/-- `apply_context_budget` with the request that it leaves: how many messages are cut off, or
an error before any is. -/
def budgeted : Except String Nat × ModelRequest :=
  let limit := contextBudgetBytes request.model
  if limit < request.fixedBytes then
    (.error ("fixed model context exceeds the " ++ toString limit ++ "-byte input budget"), request)
  else
    let available := limit - request.fixedBytes
    if historyBytes request.messages ≤ available then (.ok 0, request)
    else
      match retainedStart available request.messages.zipIdx.reverse 2 none with
      | some start => (.ok start, { request with messages := request.messages.drop start })
      | none =>
          (.error ("latest model turn exceeds the " ++ toString available ++
            "-byte history budget"), request)

theorem applyContextBudget_eq :
    request.applyContextBudget = request.budgeted.1.map fun _ => request.budgeted.2 := by
  rw [applyContextBudget, budgeted]
  split_ifs with hlimit
  · rfl
  · dsimp only
    split_ifs with hfits
    · rfl
    · cases retainedStart (contextBudgetBytes request.model - request.fixedBytes)
        request.messages.zipIdx.reverse 2 none with
      | none => rfl
      | some start => rfl

/-- The request with another history and without its cursor. -/
def cursorless (messages : List ModelMessage) : ModelRequest :=
  { request with messages, continuation := none }

/-- With these messages the request has two bytes to spare, the brackets of a history that
are counted twice. -/
def Within (messages : List ModelMessage) : Prop :=
  (request.cursorless messages).bytes + 2 ≤ contextBudgetBytes request.model

/-- The first message is one of the user. -/
def UserLed (messages : List ModelMessage) : Prop :=
  ∃ message rest, messages = message :: rest ∧ message.role = .user

variable {request}

theorem within_iff {messages : List ModelMessage} :
    request.Within messages ↔
      request.fixedBytes + historyBytes messages ≤ contextBudgetBytes request.model := by
  have hbytes := @bytes_eq_fixedBytes (request.cursorless messages) rfl
  have hfixed : (request.cursorless messages).fixedBytes = request.fixedBytes := rfl
  have hmessages : (request.cursorless messages).messages = messages := rfl
  rw [hfixed, hmessages] at hbytes
  rw [Within, hbytes]

/-! ## The scan -/

theorem historyBytes_le_append (before seen : List ModelMessage) :
    historyBytes seen ≤ historyBytes (before ++ seen) := by
  induction before with
  | nil => exact Nat.le_refl _
  | cons message before ih =>
      rw [List.cons_append, historyBytes_cons]
      split_ifs <;> omega

theorem historyBytes_drop_le {messages : List ModelMessage} {start later : Nat}
    (hle : start ≤ later) :
    historyBytes (messages.drop later) ≤ historyBytes (messages.drop start) := by
  obtain ⟨more, rfl⟩ := Nat.exists_eq_add_of_le hle
  have hsplit := List.take_append_drop more (messages.drop start)
  rw [← hsplit, List.drop_drop]
  exact historyBytes_le_append _ _

/-- The result is the one found so far, or the first start below the bound at which a suffix
is kept. -/
def FirstStart (available : Nat) (messages : List ModelMessage) (bound : Nat)
    (retained result : Option Nat) : Prop :=
  (result = retained ∧ ∀ start < bound, ¬Keeps available messages start) ∨
    ∃ start < bound, result = some start ∧ Keeps available messages start ∧
      ∀ earlier < start, ¬Keeps available messages earlier

theorem Keeps.user {available : Nat} {before seen : List ModelMessage} {message : ModelMessage}
    (hkeeps : Keeps available (before ++ message :: seen) before.length) : message.role = .user := by
  obtain ⟨found, hfound, hrole⟩ := hkeeps.2
  rw [List.getElem?_append_right (Nat.le_refl _), Nat.sub_self] at hfound
  rw [← Option.some.inj hfound] at hrole
  exact hrole

/-- The messages before those that were seen are looked at from the last to the first; once a
suffix is over the budget every longer one is. -/
theorem firstStart_retainedStart {available : Nat} {messages before seen : List ModelMessage}
    (retained : Option Nat) (hsplit : messages = before ++ seen) :
    FirstStart available messages before.length retained
      (retainedStart available before.zipIdx.reverse (historyBytes seen) retained) := by
  induction before using List.reverseRecOn generalizing seen retained with
  | nil => exact .inl ⟨rfl, fun start hstart => absurd hstart (Nat.not_lt_zero _)⟩
  | append_singleton before message ih =>
      have hmessages : messages = before ++ message :: seen := by
        rw [hsplit, List.append_assoc, List.singleton_append]
      rw [List.zipIdx_append, List.reverse_append]
      simp only [List.zipIdx_cons, List.zipIdx_nil, List.reverse_singleton, List.singleton_append,
        retainedStart, ← historyBytes_cons, List.length_append, List.length_singleton, Nat.zero_add]
      by_cases hlarge : available < historyBytes (message :: seen)
      · rw [if_pos hlarge]
        refine .inl ⟨rfl, fun start hstart hkeeps => ?_⟩
        have hlonger := @historyBytes_drop_le messages start before.length (by omega)
        rw [hmessages, List.drop_left] at hlonger
        have hfits := hkeeps.1
        rw [hmessages] at hfits
        omega
      · rw [if_neg hlarge]
        by_cases hrole : message.role = .user
        · rw [if_pos hrole]
          have hkept : Keeps available messages before.length := by
            rw [hmessages]
            exact .of_user hrole (Nat.le_of_not_lt hlarge)
          cases ih (some before.length) hmessages with
          | inl hsame =>
              exact .inr ⟨before.length, Nat.lt_succ_self _, hsame.1, hkept, hsame.2⟩
          | inr hfirst =>
              obtain ⟨start, hstart, hfirst⟩ := hfirst
              exact .inr ⟨start, Nat.lt_succ_of_lt hstart, hfirst⟩
        · rw [if_neg hrole]
          cases ih retained hmessages with
          | inl hsame =>
              refine .inl ⟨hsame.1, fun start hstart hkeeps => ?_⟩
              by_cases hlast : start = before.length
              · subst hlast
                rw [hmessages] at hkeeps
                exact hrole hkeeps.user
              · exact hsame.2 start (by omega) hkeeps
          | inr hfirst =>
              obtain ⟨start, hstart, hfirst⟩ := hfirst
              exact .inr ⟨start, Nat.lt_succ_of_lt hstart, hfirst⟩

/-! ## What is left -/

theorem keeps_iff (hlimit : request.fixedBytes ≤ contextBudgetBytes request.model) {start : Nat} :
    Keeps (contextBudgetBytes request.model - request.fixedBytes) request.messages start ↔
      request.Within (request.messages.drop start) ∧ UserLed (request.messages.drop start) := by
  rw [Keeps, within_iff]
  have hled : (∃ message, request.messages[start]? = some message ∧ message.role = .user) ↔
      UserLed (request.messages.drop start) := by
    rw [← List.head?_drop]
    constructor
    · intro h
      obtain ⟨message, hhead, hrole⟩ := h
      obtain ⟨rest, hrest⟩ := List.head?_eq_some_iff.mp hhead
      exact ⟨message, rest, hrest, hrole⟩
    · intro h
      obtain ⟨message, rest, hrest, hrole⟩ := h
      exact ⟨message, by rw [hrest, List.head?_cons], hrole⟩
  rw [hled]
  constructor
  · intro h
    exact ⟨by omega, h.2⟩
  · intro h
    exact ⟨by omega, h.2⟩

/-- A suffix of the history that begins with the user is within the budget. -/
structure Candidate (request : ModelRequest) (suffix : List ModelMessage) : Prop where
  isSuffix : suffix <:+ request.messages
  userLed : UserLed suffix
  within : request.Within suffix

theorem Candidate.keeps {suffix : List ModelMessage} (hcandidate : request.Candidate suffix) :
    request.fixedBytes ≤ contextBudgetBytes request.model ∧
      Keeps (contextBudgetBytes request.model - request.fixedBytes) request.messages
        (request.messages.length - suffix.length) := by
  have hwithin := within_iff.mp hcandidate.within
  have hlimit : request.fixedBytes ≤ contextBudgetBytes request.model := by omega
  have hdrop := List.suffix_iff_eq_drop.mp hcandidate.isSuffix
  refine ⟨hlimit, (keeps_iff hlimit).mpr ?_⟩
  rw [← hdrop]
  exact ⟨hcandidate.within, hcandidate.userLed⟩

/-- What happens to a request. -/
inductive Budgeted (request : ModelRequest) : Except String Nat × ModelRequest → Prop
  | whole (hwithin : request.Within request.messages) : Budgeted request (.ok 0, request)
  | cut (start : Nat) (hover : ¬request.Within request.messages)
      (hcandidate : request.Candidate (request.messages.drop start))
      (hlongest : ∀ suffix, request.Candidate suffix → suffix <:+ request.messages.drop start) :
      Budgeted request (.ok start, { request with messages := request.messages.drop start })
  | refused (error : String) (hover : ¬request.Within request.messages)
      (hnone : ∀ suffix, ¬request.Candidate suffix) : Budgeted request (.error error, request)

theorem budgeted_budgeted (request : ModelRequest) : request.Budgeted request.budgeted := by
  rw [budgeted]
  split_ifs with hlimit
  · refine .refused _ (fun hwithin => ?_) fun suffix hcandidate => ?_
    · have hfits := within_iff.mp hwithin
      omega
    · have hfits := hcandidate.keeps.1
      omega
  · have hfixed : request.fixedBytes ≤ contextBudgetBytes request.model := Nat.le_of_not_lt hlimit
    dsimp only
    split_ifs with hfits
    · exact .whole (within_iff.mpr (by omega))
    · have hover : ¬request.Within request.messages := by
        intro hwithin
        have hsum := within_iff.mp hwithin
        omega
      have hscan := @firstStart_retainedStart
        (contextBudgetBytes request.model - request.fixedBytes) request.messages request.messages []
        none (List.append_nil _).symm
      change FirstStart _ _ _ none (retainedStart _ request.messages.zipIdx.reverse 2 none) at hscan
      cases hscan with
      | inl hnone =>
          rw [hnone.1]
          refine .refused _ hover fun suffix hcandidate => ?_
          have hkeeps := hcandidate.keeps.2
          obtain ⟨message, hmessage, -⟩ := hkeeps.2
          exact hnone.2 _ (List.getElem?_eq_some_iff.mp hmessage).1 hkeeps
      | inr hfirst =>
          obtain ⟨start, hstart, hresult, hkeeps, hearlier⟩ := hfirst
          rw [hresult]
          have hkept := (keeps_iff hfixed).mp hkeeps
          refine .cut start hover ⟨List.drop_suffix _ _, hkept.2, hkept.1⟩ fun suffix hcandidate => ?_
          have hlater := fun hlt => hearlier _ hlt hcandidate.keeps.2
          rw [List.suffix_iff_eq_drop.mp hcandidate.isSuffix]
          obtain ⟨more, hmore⟩ := Nat.exists_eq_add_of_le (Nat.le_of_not_lt hlater)
          rw [hmore, ← List.drop_drop]
          exact List.drop_suffix _ _

/-- What is within its budget stays as it is. -/
theorem budgeted_of_within (hwithin : request.Within request.messages) :
    request.budgeted = (.ok 0, request) := by
  have hfits := within_iff.mp hwithin
  rw [budgeted, if_neg (by omega)]
  exact if_pos (by omega)

/-! ## Calls and their results -/

/-- The call that a message is the result of. -/
def resultOf (message : ModelMessage) : Option String :=
  match message.content with
  | .toolResult callId _ _ _ _ => some callId
  | _ => none

/-- The call that a message makes. -/
def callOf (message : ModelMessage) : Option String :=
  match message.content with
  | .toolCall callId _ _ _ => some callId
  | _ => none

/-- Every result comes after its call. -/
def ResultsPreceded (messages : List ModelMessage) : Prop :=
  ∀ before message after callId, messages = before ++ message :: after →
    resultOf message = some callId → ∃ call ∈ before, callOf call = some callId

/-- Every result comes after its call, and no message of the user after the call up to the
result. -/
def ResultsFollow (messages : List ModelMessage) : Prop :=
  ∀ before message after callId, messages = before ++ message :: after →
    resultOf message = some callId →
      ∃ front call between, before = front ++ call :: between ∧ callOf call = some callId ∧
        ∀ other ∈ between ++ [message], other.role ≠ .user

theorem ResultsFollow.preceded {messages : List ModelMessage} (hfollow : ResultsFollow messages) :
    ResultsPreceded messages := by
  intro before message after callId hsplit hresult
  obtain ⟨front, call, between, rfl, hcall, -⟩ := hfollow before message after callId hsplit hresult
  exact ⟨call, List.mem_append_right _ List.mem_cons_self, hcall⟩

/-- A cut before a message of the user separates no result from its call. -/
theorem ResultsFollow.of_userLed {dropped kept : List ModelMessage}
    (hfollow : ResultsFollow (dropped ++ kept)) (hled : UserLed kept) : ResultsFollow kept := by
  intro before message after callId hsplit hresult
  obtain ⟨front, call, between, hbefore, hcall, hothers⟩ :=
    hfollow (dropped ++ before) message after callId (by rw [hsplit, List.append_assoc]) hresult
  obtain ⟨first, rest, hfirst, hrole⟩ := hled
  -- The first message kept comes after the call only if it comes up to the result.
  have hafter : ∀ more, between ≠ more ++ before := by
    intro more hbetween
    apply hothers first _ hrole
    rw [hbetween, List.append_assoc]
    apply List.mem_append_right
    have hhead : (before ++ [message]) ++ after = first :: rest := by
      rw [List.append_assoc, ← hfirst, hsplit]
      rfl
    cases before with
    | nil => exact List.mem_singleton.mpr (List.cons.inj hhead).1.symm
    | cons other before => exact (List.cons.inj hhead).1 ▸ List.mem_cons_self
  cases List.append_eq_append_iff.mp hbefore with
  | inl hlater =>
      obtain ⟨front', -, hbefore'⟩ := hlater
      exact ⟨front', call, between, hbefore', hcall, hothers⟩
  | inr hearlier =>
      obtain ⟨more, -, hbetween⟩ := hearlier
      cases more with
      | nil => exact ⟨[], call, between, hbetween.symm, hcall, hothers⟩
      | cons other more => exact absurd (List.cons.inj hbetween).2 (hafter more)

theorem objectBytes_append_le (fields more : List (String × Nat)) :
    objectBytes fields + fieldsBytes more ≤ objectBytes (fields ++ more) + 1 := by
  rw [objectBytes, objectBytes, fieldsBytes, fieldsBytes, fieldsBytes, List.map_append,
    List.sum_append]
  omega

namespace BudgetEdges

def text (role : MessageRole) : ModelMessage := { role, content := .text "a" }

def call : ModelMessage := { role := .assistant, content := .toolCall "c" "t" .null none }

def result : ModelMessage := { role := .tool, content := .toolResult "c" "t" .null false false }

/-- A request with a system prompt of `length` letters. -/
def sized (length : Nat) (messages : List ModelMessage) : ModelRequest where
  model := "m"
  reasoning := none
  system := String.ofList (List.replicate length 'x')
  messages
  tools := []
  continuation := none

theorem limit_sized (length : Nat) (messages : List ModelMessage) :
    contextBudgetBytes (sized length messages).model = 262144 := by
  change contextBudgetBytes "m" = 262144
  decide

theorem fixedBytes_sized (length : Nat) (messages : List ModelMessage) :
    (sized length messages).fixedBytes = 50 + length := by
  have hmodel : escapedBytes "m" = 1 := by decide
  rw [fixedBytes_plain rfl rfl]
  change 49 + escapedBytes "m" + escapedBytes (String.ofList (List.replicate length 'x')) = _
  rw [escapedBytes_replicate, hmodel]

theorem within_sized {length : Nat} {messages suffix : List ModelMessage} :
    (sized length messages).Within suffix ↔ length + historyBytes suffix ≤ 262094 := by
  rw [within_iff, fixedBytes_sized, limit_sized]
  omega

/-- A whole history is kept that does not begin with the user. -/
theorem keeps_led : (sized 0 [text .assistant]).budgeted = (.ok 0, sized 0 [text .assistant]) ∧
    ¬UserLed (sized 0 [text .assistant]).messages := by
  constructor
  · apply budgeted_of_within
    rw [within_sized]
    decide
  · intro hled
    obtain ⟨message, rest, hmessages, hrole⟩ := hled
    obtain ⟨rfl, -⟩ := List.cons.inj hmessages
    cases hrole

/-- A request of exactly the limit is refused. -/
theorem refuses_tight :
    let request := sized (262096 - historyBytes [text .user]) [text .user]
    UserLed request.messages ∧ request.bytes = contextBudgetBytes request.model ∧
      ∃ error, request.budgeted = (.error error, request) := by
  intro request
  have hhistory : historyBytes [text .user] ≤ 100 := by decide
  have hover : ¬request.Within request.messages := by
    intro hwithin
    have hfits : 262096 - historyBytes [text .user] + historyBytes [text .user] ≤ 262094 :=
      within_sized.mp hwithin
    omega
  refine ⟨⟨_, _, rfl, rfl⟩, ?_, ?_⟩
  · have hbytes := @bytes_eq_fixedBytes request rfl
    rw [fixedBytes_sized] at hbytes
    change request.bytes + 2 = _ + historyBytes [text .user] at hbytes
    rw [limit_sized]
    omega
  · generalize hresult : request.budgeted = result
    have hbudgeted := budgeted_budgeted request
    rw [hresult] at hbudgeted
    cases hbudgeted with
    | whole hwithin => exact absurd hwithin hover
    | cut start _ hcandidate _ =>
        cases start with
        | zero => exact absurd hcandidate.within hover
        | succ start =>
            obtain ⟨message, rest, hmessages, -⟩ := hcandidate.userLed
            simp [request, sized] at hmessages
    | refused error => exact ⟨error, rfl⟩

/-- A call, a message of the user and the result of the call, without room for the call. -/
def parted : ModelRequest :=
  sized (262094 - historyBytes [text .user, result]) [call, text .user, result]

theorem budgeted_parted : parted.budgeted.2.messages = [text .user, result] := by
  have hlonger : historyBytes [text .user, result] < historyBytes [call, text .user, result] := by
    decide
  have hhistory : historyBytes [text .user, result] ≤ 1000 := by decide
  have hover : ¬parted.Within parted.messages := by
    intro hwithin
    have hfits : 262094 - historyBytes [text .user, result] +
      historyBytes [call, text .user, result] ≤ 262094 := within_sized.mp hwithin
    omega
  have hkept : parted.Candidate [text .user, result] :=
    ⟨List.suffix_cons _ _, ⟨_, _, rfl, rfl⟩, within_sized.mpr (by omega)⟩
  generalize hresult : parted.budgeted = result
  have hbudgeted := budgeted_budgeted parted
  rw [hresult] at hbudgeted
  cases hbudgeted with
  | whole hwithin => exact absurd hwithin hover
  | refused _ _ hnone => exact absurd hkept (hnone _)
  | cut start _ hcandidate hlongest =>
      match start, hcandidate, hlongest _ hkept with
      | 0, hcandidate, _ =>
          obtain ⟨message, rest, hmessages, hrole⟩ := hcandidate.userLed
          obtain ⟨rfl, -⟩ := List.cons.inj hmessages
          cases hrole
      | 1, _, _ => rfl
      | start + 2, _, hsuffix =>
          have hlength := hsuffix.length_le
          simp [parted, sized] at hlength
          omega

/-- The result is kept without its call. -/
theorem parts_result : ResultsPreceded parted.messages ∧
    ¬ResultsPreceded parted.budgeted.2.messages := by
  constructor
  · intro before message after callId hsplit hresult
    match before, hsplit with
    | [], hsplit =>
        obtain ⟨rfl, -⟩ := List.cons.inj hsplit
        cases hresult
    | [_], hsplit =>
        obtain ⟨-, hsplit⟩ := List.cons.inj hsplit
        obtain ⟨rfl, -⟩ := List.cons.inj hsplit
        cases hresult
    | first :: _ :: rest, hsplit =>
        obtain ⟨hfirst, hrest⟩ := List.cons.inj hsplit
        have hlast := (List.cons.inj hrest).2
        cases rest with
        | nil =>
            have hsame : result = message := (List.cons.inj hlast).1
            rw [← hsame] at hresult
            rw [← hfirst]
            exact ⟨call, List.mem_cons_self, hresult⟩
        | cons => simp at hlast
  · rw [budgeted_parted]
    intro hpreceded
    obtain ⟨call, hcall, hcallOf⟩ := hpreceded [text .user] result [] "c" rfl rfl
    obtain rfl := List.mem_singleton.mp hcall
    cases hcallOf

/-- A cursor is not counted. -/
def continued : ModelRequest :=
  { sized (262094 - historyBytes [text .user]) [text .user] with
    continuation := some
      { responseId := "r", provider := "p", model := "m", api := "a", fallbackMessages := [] } }

theorem exceeds_continued :
    continued.budgeted = (.ok 0, continued) ∧
      contextBudgetBytes continued.model < continued.bytes := by
  have hhistory : historyBytes [text .user] ≤ 100 := by decide
  have hlimit : contextBudgetBytes continued.model = 262144 :=
    limit_sized (262094 - historyBytes [text .user]) [text .user]
  have hfixed : continued.fixedBytes = 50 + (262094 - historyBytes [text .user]) :=
    fixedBytes_sized (262094 - historyBytes [text .user]) [text .user]
  constructor
  · apply budgeted_of_within
    rw [within_iff, hfixed, hlimit]
    change 50 + (262094 - historyBytes [text .user]) + historyBytes [text .user] ≤ 262144
    omega
  · have hcursorless := @bytes_eq_fixedBytes (continued.cursorless continued.messages) rfl
    have hmessages : historyBytes (continued.cursorless continued.messages).messages =
      historyBytes [text .user] := rfl
    have hcursor : (continued.cursorless continued.messages).bytes + 15 ≤ continued.bytes := by
      have hfields := objectBytes_append_le (continued.fields (historyBytes continued.messages))
        (Protocol.optional "continuation" (continued.continuation.map (·.bytes)))
      have hsame : (continued.cursorless continued.messages).bytes =
          objectBytes (continued.fields (historyBytes continued.messages)) := rfl
      have hname : 16 ≤ fieldsBytes
          (Protocol.optional "continuation" (continued.continuation.map (·.bytes))) := by
        simp [continued, Protocol.optional, fieldsBytes, nameBytes]
      rw [hsame, bytes]
      omega
    have hsame : (continued.cursorless continued.messages).fixedBytes = continued.fixedBytes := rfl
    rw [hmessages, hsame, hfixed] at hcursorless
    rw [hlimit]
    omega

end BudgetEdges

end ModelRequest

end Mews
