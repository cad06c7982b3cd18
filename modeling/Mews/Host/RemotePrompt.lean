import Mathlib.Data.List.Basic
import Mathlib.Logic.Function.Basic
import Mews.Protocol.Ids

/-!
# The prompt of a remote ACP Turn

The Hub sends the prompt of an ACP Turn to its Host and waits for the reply, while the
Turn may be cancelled, aborted or fail.  Before the prompt is sent it waits for a permit of
the link and for room in its channel, and the Host knows it from its arrival on.  A step is
what one task does between two await points.
-/

namespace Mews

open Protocol

namespace RemotePrompt

/-- The messages on their way to the Host. -/
inductive LinkMessage where
  | executeAcpTurn (requestId : RequestId)
  | cancelAcp (requestId : RequestId)
  | other
  deriving DecidableEq, Repr

/-- Where `request_inner` stands. -/
inductive RequestStage where
  /-- It waits for a permit. -/
  | waiting
  /-- It has a permit and waits for room in the channel. -/
  | sending
  /-- It waits for the reply. -/
  | sent
  deriving DecidableEq, Repr

/-- Where the `select!` of `execute_acp_turn` stands. -/
inductive CancelStage where
  | watching
  /-- `CancelAcp` waits for room in the channel; the request is not polled. -/
  | cancelling
  /-- The request is polled again, for five seconds at most. -/
  | confirming
  deriving DecidableEq, Repr

inductive TurnPhase where
  | idle
  | active (request : RequestStage) (cancel : CancelStage)
  | ended (replied : Bool)
  deriving DecidableEq, Repr

/-- The prompt on the Host. -/
inductive Prompt where
  | absent
  | running (cancelled : Bool)
  | finished
  deriving DecidableEq, Repr

/-- Why the Hub does not wait any longer. -/
inductive GiveUp where
  | aborted
  /-- An event of the Turn cannot be persisted. -/
  | unpersisted
  /-- No reply within 3605 seconds. -/
  | timedOut
  /-- No reply within five seconds of the cancellation. -/
  | unconfirmed
  deriving DecidableEq, Repr

def channelCapacity : Nat := 32

structure Link where
  permits : Nat
  /-- The permits of other requests. -/
  borrowed : Nat
  /-- The channel of the connected Host. -/
  outbox : List LinkMessage
  /-- What is on its way, in order. -/
  wire : List LinkMessage
  /-- What the Host has received. -/
  received : List LinkMessage
  hub : RequestId → TurnPhase
  host : RequestId → Prompt
  replies : RequestId → Bool

inductive Action where
  | begin (requestId : RequestId)
  | acquire (requestId : RequestId)
  | send (requestId : RequestId)
  /-- The Turn sees its cancellation. -/
  | observe (requestId : RequestId)
  | cancel (requestId : RequestId)
  | answer (requestId : RequestId)
  | giveUp (requestId : RequestId) (reason : GiveUp)
  | forward
  | deliver
  | finish (requestId : RequestId)
  | borrow
  | giveBack
  | other
  deriving DecidableEq, Repr

namespace Link

variable (link : Link) (requestId : RequestId)

def start : Link where
  permits := 32
  borrowed := 0
  outbox := []
  wire := []
  received := []
  hub := fun _ => .idle
  host := fun _ => .absent
  replies := fun _ => false

/-- Everything that the Hub has put on the wire, in order. -/
def sentMessages : List LinkMessage := link.received ++ (link.wire ++ link.outbox)

def enter (phase : TurnPhase) : Link :=
  { link with hub := Function.update link.hub requestId phase }

def push (message : LinkMessage) : Link := { link with outbox := link.outbox ++ [message] }

/-- The guard of the permit is dropped with the request. -/
def release (request : RequestStage) : Link :=
  if request = .waiting then link else { link with permits := link.permits + 1 }

/-- The phases that the reason ends. -/
def gives (request : RequestStage) (cancel : CancelStage) : GiveUp → Bool
  | .aborted => true
  | .unpersisted => request = .sent && link.host requestId ≠ .absent
  | .timedOut => request = .sent && cancel ≠ .cancelling
  | .unconfirmed => cancel = .confirming

/-- The dispatch of a joined Host. -/
def receive (message : LinkMessage) : Link :=
  match message with
  | .executeAcpTurn requestId =>
      { link with host := Function.update link.host requestId (.running false) }
  | .cancelAcp requestId =>
      match link.host requestId with
      | .running _ => { link with host := Function.update link.host requestId (.running true) }
      | .absent | .finished => link
  | .other => link

def step : Action → Option Link
  | .begin requestId =>
      match link.hub requestId with
      | .idle => some (link.enter requestId (.active .waiting .watching))
      | .active _ _ | .ended _ => none
  | .acquire requestId =>
      match link.hub requestId with
      | .active .waiting cancel =>
          if cancel ≠ .cancelling ∧ 0 < link.permits then
            some ({ link with permits := link.permits - 1 }.enter requestId (.active .sending cancel))
          else none
      | _ => none
  | .send requestId =>
      match link.hub requestId with
      | .active .sending cancel =>
          if cancel ≠ .cancelling ∧ link.outbox.length < channelCapacity then
            some ((link.push (.executeAcpTurn requestId)).enter requestId (.active .sent cancel))
          else none
      | _ => none
  | .observe requestId =>
      match link.hub requestId with
      | .active request .watching => some (link.enter requestId (.active request .cancelling))
      | _ => none
  | .cancel requestId =>
      match link.hub requestId with
      | .active request .cancelling =>
          if link.outbox.length < channelCapacity then
            some ((link.push (.cancelAcp requestId)).enter requestId (.active request .confirming))
          else none
      | _ => none
  | .answer requestId =>
      match link.hub requestId with
      | .active .sent cancel =>
          if cancel ≠ .cancelling ∧ link.replies requestId then
            some ((link.release .sent).enter requestId (.ended true))
          else none
      | _ => none
  | .giveUp requestId reason =>
      match link.hub requestId with
      | .active request cancel =>
          if link.gives requestId request cancel reason then
            some ((link.release request).enter requestId (.ended false))
          else none
      | _ => none
  | .forward =>
      match link.outbox with
      | message :: outbox => some { link with outbox, wire := link.wire ++ [message] }
      | [] => none
  | .deliver =>
      match link.wire with
      | message :: wire =>
          some ({ link with wire, received := link.received ++ [message] }.receive message)
      | [] => none
  | .finish requestId =>
      match link.host requestId with
      | .running _ =>
          some
            { link with
              host := Function.update link.host requestId .finished
              replies := Function.update link.replies requestId true }
      | .absent | .finished => none
  | .borrow =>
      if 0 < link.permits then
        some { link with permits := link.permits - 1, borrowed := link.borrowed + 1 }
      else none
  | .giveBack =>
      if 0 < link.borrowed then
        some { link with permits := link.permits + 1, borrowed := link.borrowed - 1 }
      else none
  | .other =>
      if link.outbox.length < channelCapacity then some (link.push .other) else none

/-- The states of a link that stays up. -/
inductive Run : Link → Prop
  | start : Run start
  | step {link link' : Link} {action : Action} (hrun : Run link)
      (hstep : link.step action = some link') : Run link'

/-- No message about the request is on its way. -/
def Quiet : Prop :=
  .executeAcpTurn requestId ∉ link.wire ++ link.outbox ∧
    .cancelAcp requestId ∉ link.wire ++ link.outbox

/-- No cancellation is ahead of its request, and a prompt that nobody awaits any more
does not run on once everything about it has arrived. -/
structure Stopped : Prop where
  ordered : ∀ requestId before after,
    link.sentMessages = before ++ .cancelAcp requestId :: after → .executeAcpTurn requestId ∉ after
  stopped : ∀ requestId, link.hub requestId = .ended false → link.Quiet requestId →
    link.host requestId ≠ .running false

/-- The request is not sent behind its own cancellation, and the Hub gives up a request
that it has sent only behind its cancellation, or when the Host has finished it. -/
def Careful : Action → Prop
  | .send requestId => link.hub requestId = .active .sending .watching
  | .giveUp requestId _ =>
      ∀ cancel, link.hub requestId = .active .sent cancel →
        cancel = .confirming ∨ link.host requestId = .finished
  | _ => True

inductive CarefulRun : Link → Prop
  | start : CarefulRun start
  | step {link link' : Link} {action : Action} (hrun : CarefulRun link)
      (hcareful : link.Careful action) (hstep : link.step action = some link') : CarefulRun link'

end Link

/-! ## One request -/

inductive PromptMessage where
  | execute
  | cancel
  deriving DecidableEq, Repr

/-- A link as one request sees it. -/
structure Exchange where
  phase : TurnPhase
  received : List PromptMessage
  pending : List PromptMessage
  prompt : Prompt
  deriving DecidableEq, Repr

namespace Exchange

/-- The careful steps that change what a request sees. -/
inductive Step : Exchange → Exchange → Prop
  | begin {exchange : Exchange} (hphase : exchange.phase = .idle) :
      Step exchange { exchange with phase := .active .waiting .watching }
  | acquire {exchange : Exchange} {cancel : CancelStage}
      (hphase : exchange.phase = .active .waiting cancel) :
      Step exchange { exchange with phase := .active .sending cancel }
  | send {exchange : Exchange} (hphase : exchange.phase = .active .sending .watching) :
      Step exchange
        { exchange with
          phase := .active .sent .watching, pending := exchange.pending ++ [.execute] }
  | observe {exchange : Exchange} {request : RequestStage}
      (hphase : exchange.phase = .active request .watching) :
      Step exchange { exchange with phase := .active request .cancelling }
  | cancel {exchange : Exchange} {request : RequestStage}
      (hphase : exchange.phase = .active request .cancelling) :
      Step exchange
        { exchange with
          phase := .active request .confirming, pending := exchange.pending ++ [.cancel] }
  | answer {exchange : Exchange} {cancel : CancelStage}
      (hphase : exchange.phase = .active .sent cancel) :
      Step exchange { exchange with phase := .ended true }
  | giveUp {exchange : Exchange} {request : RequestStage} {cancel : CancelStage}
      (hphase : exchange.phase = .active request cancel)
      (hcareful : request = .sent → cancel = .confirming ∨ exchange.prompt = .finished) :
      Step exchange { exchange with phase := .ended false }
  | deliverExecute {exchange : Exchange} {pending : List PromptMessage}
      (hpending : exchange.pending = .execute :: pending) :
      Step exchange
        { exchange with
          received := exchange.received ++ [.execute], pending, prompt := .running false }
  | deliverCancel {exchange : Exchange} {pending : List PromptMessage}
      (hpending : exchange.pending = .cancel :: pending) :
      Step exchange
        { exchange with
          received := exchange.received ++ [.cancel], pending
          prompt := match exchange.prompt with
            | .running _ => .running true
            | .absent => .absent
            | .finished => .finished }
  | finish {exchange : Exchange} {cancelled : Bool}
      (hprompt : exchange.prompt = .running cancelled) :
      Step exchange { exchange with prompt := .finished }

/-- What has been sent in each phase. -/
def Sends (prompt : Prompt) : TurnPhase → List PromptMessage → Prop
  | .idle, sent => sent = []
  | .active .sent .confirming, sent => sent = [.execute, .cancel]
  | .active .sent _, sent => sent = [.execute]
  | .active _ .confirming, sent => sent = [.cancel]
  | .active _ _, sent => sent = []
  | .ended replied, sent =>
      sent = [] ∨ sent = [.cancel] ∨ sent = [.execute, .cancel] ∨
        sent = [.execute] ∧ (replied = false → prompt = .finished)

/-- The prompt that the received messages leave. -/
def Leaves : List PromptMessage → Prompt → Prop
  | [], prompt => prompt = .absent
  | [.cancel], prompt => prompt = .absent
  | [.execute], prompt => prompt = .running false ∨ prompt = .finished
  | [.execute, .cancel], prompt => prompt = .running true ∨ prompt = .finished
  | _, _ => False

structure Consistent (exchange : Exchange) : Prop where
  sends : Sends exchange.prompt exchange.phase (exchange.received ++ exchange.pending)
  leaves : Leaves exchange.received exchange.prompt

variable {exchange exchange' : Exchange}

/-- In every phase the request is sent before its cancellation, and each once. -/
theorem Consistent.sent_cases (hconsistent : exchange.Consistent) :
    exchange.received ++ exchange.pending = [] ∨
      exchange.received ++ exchange.pending = [.cancel] ∨
      exchange.received ++ exchange.pending = [.execute] ∨
      exchange.received ++ exchange.pending = [.execute, .cancel] := by
  have hsends := hconsistent.sends
  cases hphase : exchange.phase with
  | idle =>
      rw [hphase] at hsends
      exact .inl hsends
  | active request cancel =>
      rw [hphase] at hsends
      cases request <;> cases cancel <;> simp only [Sends] at hsends <;> simp [hsends]
  | ended replied =>
      rw [hphase] at hsends
      rcases hsends with hsent | hsent | hsent | ⟨hsent, -⟩ <;> simp [hsent]

theorem Consistent.ordered (hconsistent : exchange.Consistent) {before after : List PromptMessage}
    (hsent : exchange.received ++ exchange.pending = before ++ .cancel :: after) :
    .execute ∉ after := by
  intro hexecute
  obtain ⟨first, rest, rfl⟩ := List.append_of_mem hexecute
  have hcases := hconsistent.sent_cases
  rw [hsent] at hcases
  cases before with
  | nil => simp at hcases
  | cons message before =>
      simp at hcases
      have hlength := congrArg List.length hcases.2
      simp at hlength
      omega

theorem Sends.mono {prompt prompt' : Prompt} {phase : TurnPhase} {sent : List PromptMessage}
    (hsends : Sends prompt phase sent) (hprompt : prompt = .finished → prompt' = .finished) :
    Sends prompt' phase sent := by
  cases phase with
  | idle => exact hsends
  | active request cancel => cases request <;> cases cancel <;> exact hsends
  | ended replied =>
      rcases hsends with hsent | hsent | hsent | ⟨hsent, hfinished⟩
      · exact .inl hsent
      · exact .inr (.inl hsent)
      · exact .inr (.inr (.inl hsent))
      · exact .inr (.inr (.inr ⟨hsent, fun hreplied => hprompt (hfinished hreplied)⟩))

/-- The request arrives first. -/
theorem Consistent.received_execute (hconsistent : exchange.Consistent)
    {pending : List PromptMessage} (hpending : exchange.pending = .execute :: pending) :
    exchange.received = [] := by
  have hcases := hconsistent.sent_cases
  rw [hpending] at hcases
  match hreceived : exchange.received with
  | [] => rfl
  | [message] => simp [hreceived] at hcases
  | message :: message' :: received => simp [hreceived] at hcases

/-- The cancellation arrives last. -/
theorem Consistent.received_cancel (hconsistent : exchange.Consistent)
    {pending : List PromptMessage} (hpending : exchange.pending = .cancel :: pending) :
    exchange.received = [] ∨ exchange.received = [.execute] := by
  have hcases := hconsistent.sent_cases
  rw [hpending] at hcases
  match hreceived : exchange.received with
  | [] => exact .inl rfl
  | [message] =>
      simp [hreceived] at hcases
      exact .inr (by rw [hcases.1])
  | message :: message' :: received => simp [hreceived] at hcases

theorem Consistent.step (hconsistent : exchange.Consistent) (hstep : Step exchange exchange') :
    exchange'.Consistent := by
  obtain ⟨hsends, hleaves⟩ := hconsistent
  cases hstep with
  | begin hphase =>
      rw [hphase] at hsends
      exact ⟨hsends, hleaves⟩
  | @acquire cancel hphase =>
      rw [hphase] at hsends
      refine ⟨?_, hleaves⟩
      cases cancel <;> exact hsends
  | send hphase =>
      rw [hphase] at hsends
      refine ⟨?_, hleaves⟩
      have hsent : exchange.received ++ exchange.pending = [] := hsends
      change exchange.received ++ (exchange.pending ++ [.execute]) = [.execute]
      rw [← List.append_assoc, hsent, List.nil_append]
  | @observe request hphase =>
      rw [hphase] at hsends
      refine ⟨?_, hleaves⟩
      cases request <;> exact hsends
  | @cancel request hphase =>
      rw [hphase] at hsends
      refine ⟨?_, hleaves⟩
      change Sends _ (.active request .confirming) (exchange.received ++ (exchange.pending ++ [.cancel]))
      rw [← List.append_assoc]
      cases request <;> simp only [Sends] at hsends ⊢ <;> rw [hsends] <;> rfl
  | @answer cancel hphase =>
      rw [hphase] at hsends
      refine ⟨?_, hleaves⟩
      cases cancel with
      | watching | cancelling => exact .inr (.inr (.inr ⟨hsends, fun hreplied => by cases hreplied⟩))
      | confirming => exact .inr (.inr (.inl hsends))
  | @giveUp request cancel hphase hcareful =>
      rw [hphase] at hsends
      refine ⟨?_, hleaves⟩
      cases request with
      | waiting | sending =>
          cases cancel with
          | watching | cancelling => exact .inl hsends
          | confirming => exact .inr (.inl hsends)
      | sent =>
          cases cancel with
          | watching | cancelling =>
              have hfinished : exchange.prompt = .finished := by simpa using hcareful rfl
              exact .inr (.inr (.inr ⟨hsends, fun _ => hfinished⟩))
          | confirming => exact .inr (.inr (.inl hsends))
  | @deliverExecute pending hpending =>
      have hreceived := Consistent.received_execute ⟨hsends, hleaves⟩ hpending
      rw [hreceived] at hleaves
      have habsent : exchange.prompt = .absent := hleaves
      constructor
      · change Sends (.running false) exchange.phase (exchange.received ++ [.execute] ++ pending)
        rw [List.append_assoc, List.singleton_append, ← hpending]
        apply hsends.mono
        rw [habsent]
        intro hfinished
        cases hfinished
      · change Leaves (exchange.received ++ [.execute]) (.running false)
        rw [hreceived]
        exact .inl rfl
  | @deliverCancel pending hpending =>
      have hreceived := Consistent.received_cancel ⟨hsends, hleaves⟩ hpending
      constructor
      · change Sends _ exchange.phase (exchange.received ++ [.cancel] ++ pending)
        rw [List.append_assoc, List.singleton_append, ← hpending]
        apply hsends.mono
        intro hfinished
        rw [hfinished]
      · change Leaves (exchange.received ++ [.cancel]) _
        rcases hreceived with hreceived | hreceived <;> rw [hreceived] at hleaves ⊢
        · have habsent : exchange.prompt = .absent := hleaves
          rw [habsent]
          rfl
        · rcases hleaves with hprompt | hprompt <;> rw [hprompt]
          · exact .inl rfl
          · exact .inr rfl
  | @finish cancelled hprompt =>
      constructor
      · apply hsends.mono
        intro _
        rfl
      · rw [hprompt] at hleaves
        change Leaves exchange.received .finished
        match hreceived : exchange.received with
        | [] => simp [hreceived, Leaves] at hleaves
        | [.execute] => exact .inr rfl
        | [.cancel] => simp [hreceived, Leaves] at hleaves
        | [.execute, .cancel] => exact .inr rfl
        | .execute :: .execute :: _ | .cancel :: _ :: _ | .execute :: .cancel :: _ :: _ =>
            simp [hreceived, Leaves] at hleaves

end Exchange

/-! ## The link as every request sees it -/

def LinkMessage.about (requestId : RequestId) : LinkMessage → Option PromptMessage
  | .executeAcpTurn target => if target = requestId then some .execute else none
  | .cancelAcp target => if target = requestId then some .cancel else none
  | .other => none

namespace Link

def view (link : Link) (requestId : RequestId) : Exchange where
  phase := link.hub requestId
  received := link.received.filterMap (LinkMessage.about requestId)
  pending := (link.wire ++ link.outbox).filterMap (LinkMessage.about requestId)
  prompt := link.host requestId

variable {link link' : Link} {requestId other : RequestId}

theorem view_enter (phase : TurnPhase) :
    (link.enter requestId phase).view other =
      if other = requestId then { link.view other with phase } else link.view other := by
  by_cases hother : other = requestId
  · subst hother
    simp [view, enter]
  · simp [view, enter, hother]

theorem view_push (message : LinkMessage) :
    (link.push message).view other =
      { link.view other with
        pending := (link.view other).pending ++ (message.about other).toList } := by
  cases habout : message.about other <;>
    simp [view, push, ← List.append_assoc, List.filterMap_append, habout]

theorem view_release (request : RequestStage) :
    (link.release request).view other = link.view other := by
  rw [release]
  split_ifs <;> rfl

/-- The Host receives the message at the head of the wire. -/
def delivered (link : Link) (message : LinkMessage) (wire : List LinkMessage) : Link :=
  { link with wire, received := link.received ++ [message] }.receive message

theorem view_delivered {message : LinkMessage} {wire : List LinkMessage}
    (hwire : link.wire = message :: wire) (other : RequestId) :
    (link.delivered message wire).view other = link.view other ∨
      Exchange.Step (link.view other) ((link.delivered message wire).view other) := by
  cases message with
  | executeAcpTurn requestId =>
      by_cases hother : other = requestId
      · subst hother
        have hpending : (link.view other).pending = .execute ::
            (wire ++ link.outbox).filterMap (LinkMessage.about other) := by
          simp [view, hwire, LinkMessage.about]
        have hdeliver := Exchange.Step.deliverExecute hpending
        refine .inr ?_
        simpa [view, delivered, receive, LinkMessage.about] using hdeliver
      · refine .inl ?_
        simp [view, delivered, receive, hwire, LinkMessage.about, hother, Ne.symm hother]
  | cancelAcp requestId =>
      by_cases hother : other = requestId
      · subst hother
        have hpending : (link.view other).pending = .cancel ::
            (wire ++ link.outbox).filterMap (LinkMessage.about other) := by
          simp [view, hwire, LinkMessage.about]
        have hdeliver := Exchange.Step.deliverCancel hpending
        refine .inr ?_
        cases hprompt : link.host other <;>
          simpa [view, delivered, receive, LinkMessage.about, hprompt] using hdeliver
      · refine .inl ?_
        cases hprompt : link.host requestId <;>
          simp [view, delivered, receive, hwire, LinkMessage.about, hother, Ne.symm hother, hprompt]
  | other =>
      have habout : LinkMessage.other.about other = none := rfl
      refine .inl ?_
      simp [view, delivered, receive, hwire, habout]

/-- A careful step is one of the request's own, or none. -/
theorem view_step {action : Action} (hstep : link.step action = some link')
    (hcareful : link.Careful action) (other : RequestId) :
    link'.view other = link.view other ∨ Exchange.Step (link.view other) (link'.view other) := by
  cases action with
  | begin requestId =>
      simp only [step] at hstep
      split at hstep
      · obtain rfl := Option.some.inj hstep
        rw [view_enter]
        split_ifs with hother
        · subst hother
          exact .inr (.begin ‹_›)
        · exact .inl rfl
      · cases hstep
      · cases hstep
  | acquire requestId =>
      simp only [step] at hstep
      split at hstep
      · split_ifs at hstep with hguard
        obtain rfl := Option.some.inj hstep
        rw [view_enter]
        split_ifs with hother
        · subst hother
          exact .inr (.acquire ‹_›)
        · exact .inl rfl
      · cases hstep
  | send requestId =>
      have hphase : link.hub requestId = .active .sending .watching := hcareful
      simp only [step, hphase] at hstep
      split_ifs at hstep with hguard
      obtain rfl := Option.some.inj hstep
      rw [view_enter, view_push]
      split_ifs with hother
      · subst hother
        simp only [LinkMessage.about, if_true]
        exact .inr (.send hphase)
      · simp [LinkMessage.about, Ne.symm hother]
  | observe requestId =>
      simp only [step] at hstep
      split at hstep
      · obtain rfl := Option.some.inj hstep
        rw [view_enter]
        split_ifs with hother
        · subst hother
          exact .inr (.observe ‹_›)
        · exact .inl rfl
      · cases hstep
  | cancel requestId =>
      simp only [step] at hstep
      split at hstep
      · split_ifs at hstep with hguard
        obtain rfl := Option.some.inj hstep
        rw [view_enter, view_push]
        split_ifs with hother
        · subst hother
          simp only [LinkMessage.about, if_true]
          exact .inr (.cancel ‹_›)
        · simp [LinkMessage.about, Ne.symm hother]
      · cases hstep
  | answer requestId =>
      simp only [step] at hstep
      split at hstep
      · split_ifs at hstep with hguard
        obtain rfl := Option.some.inj hstep
        rw [view_enter, view_release]
        split_ifs with hother
        · subst hother
          exact .inr (.answer ‹_›)
        · exact .inl rfl
      · cases hstep
  | giveUp requestId reason =>
      simp only [step] at hstep
      split at hstep
      · rename_i request cancel hphase
        split_ifs at hstep with hgives
        obtain rfl := Option.some.inj hstep
        rw [view_enter, view_release]
        split_ifs with hother
        · subst hother
          refine .inr (.giveUp hphase ?_)
          rintro rfl
          exact hcareful cancel hphase
        · exact .inl rfl
      · cases hstep
  | forward =>
      simp only [step] at hstep
      split at hstep
      · obtain rfl := Option.some.inj hstep
        rename_i houtbox
        simp [view, houtbox]
      · cases hstep
  | deliver =>
      simp only [step] at hstep
      split at hstep
      · rename_i message wire hwire
        obtain rfl := Option.some.inj hstep
        exact view_delivered hwire other
      · cases hstep
  | finish requestId =>
      simp only [step] at hstep
      split at hstep
      · rename_i cancelled hprompt
        obtain rfl := Option.some.inj hstep
        by_cases hother : other = requestId
        · subst hother
          refine .inr ?_
          have hfinish := @Exchange.Step.finish (link.view other) cancelled hprompt
          simpa [view] using hfinish
        · simp [view, hother]
      · cases hstep
      · cases hstep
  | borrow =>
      simp only [step] at hstep
      split_ifs at hstep
      obtain rfl := Option.some.inj hstep
      exact .inl rfl
  | giveBack =>
      simp only [step] at hstep
      split_ifs at hstep
      obtain rfl := Option.some.inj hstep
      exact .inl rfl
  | other =>
      simp only [step] at hstep
      split_ifs at hstep
      obtain rfl := Option.some.inj hstep
      rw [view_push]
      simp [LinkMessage.about]

theorem consistent_of_run (hrun : CarefulRun link) (requestId : RequestId) :
    (link.view requestId).Consistent := by
  induction hrun with
  | start => exact ⟨rfl, rfl⟩
  | step _ hcareful hstep ih =>
      rcases view_step hstep hcareful requestId with hview | hview
      · rw [hview]
        exact ih
      · exact ih.step hview

theorem about_sentMessages (link : Link) (requestId : RequestId) :
    link.sentMessages.filterMap (LinkMessage.about requestId) =
      (link.view requestId).received ++ (link.view requestId).pending := by
  rw [sentMessages, List.filterMap_append]
  rfl

theorem pending_of_quiet (hquiet : link.Quiet requestId) :
    (link.view requestId).pending = [] := by
  apply List.filterMap_eq_nil_iff.mpr
  intro message hmessage
  cases message with
  | executeAcpTurn target =>
      rw [LinkMessage.about, if_neg]
      rintro rfl
      exact hquiet.1 hmessage
  | cancelAcp target =>
      rw [LinkMessage.about, if_neg]
      rintro rfl
      exact hquiet.2 hmessage
  | other => rfl

/-- On a link that stays up every careful run keeps cancellations behind their requests
and stops every prompt that nobody awaits any more. -/
theorem stopped_of_careful (hrun : CarefulRun link) : link.Stopped := by
  constructor
  · intro requestId before after hsent hmem
    have hview := about_sentMessages link requestId
    rw [hsent, List.filterMap_append, List.filterMap_cons, LinkMessage.about, if_pos rfl] at hview
    apply (consistent_of_run hrun requestId).ordered hview.symm
    exact List.mem_filterMap.mpr ⟨_, hmem, if_pos rfl⟩
  · intro requestId hended hquiet hrunning
    have hconsistent := consistent_of_run hrun requestId
    have hsends := hconsistent.sends
    have hleaves := hconsistent.leaves
    rw [pending_of_quiet hquiet, List.append_nil] at hsends
    change Exchange.Sends _ (link.hub requestId) _ at hsends
    change Exchange.Leaves _ (link.host requestId) at hleaves
    rw [hended] at hsends
    rw [hrunning] at hleaves
    rcases hsends with hsent | hsent | hsent | ⟨hsent, hfinished⟩
    · rw [hsent] at hleaves
      cases hleaves
    · rw [hsent] at hleaves
      cases hleaves
    · rw [hsent] at hleaves
      rcases hleaves with hprompt | hprompt <;> cases hprompt
    · have hprompt : link.host requestId = .finished := hfinished rfl
      rw [hrunning] at hprompt
      cases hprompt

end Link

def runFrom (link : Link) (actions : List Action) : Option Link :=
  actions.foldlM Link.step link

theorem runFrom_cons {link link' : Link} {action : Action} {actions : List Action} :
    runFrom link (action :: actions) = some link' ↔
      ∃ next, link.step action = some next ∧ runFrom next actions = some link' := by
  rw [runFrom, List.foldlM_cons]
  exact Option.bind_eq_some_iff

/-! ## A cancellation behind its request -/

namespace LateCancel

/-- The Turn is cancelled while the Host runs its prompt, and the Host does not answer. -/
theorem stopped : ∃ link,
    runFrom Link.start [.begin ⟨"1"⟩, .acquire ⟨"1"⟩, .send ⟨"1"⟩, .forward, .deliver,
      .observe ⟨"1"⟩, .cancel ⟨"1"⟩, .giveUp ⟨"1"⟩ .unconfirmed] = some link ∧
    link.hub ⟨"1"⟩ = .ended false ∧ link.Stopped := by
  refine ⟨_, rfl, rfl, Link.stopped_of_careful ?_⟩
  have hgives : ∀ cancel, TurnPhase.active .sent .confirming = .active .sent cancel →
      cancel = .confirming := by
    intro cancel hcancel
    injection hcancel with _ hcancel
    exact hcancel.symm
  have hbegin := @Link.CarefulRun.step _ _ (.begin ⟨"1"⟩) .start trivial rfl
  have hacquire := @Link.CarefulRun.step _ _ (.acquire ⟨"1"⟩) hbegin trivial rfl
  have hsend := @Link.CarefulRun.step _ _ (.send ⟨"1"⟩) hacquire rfl rfl
  have hforward := @Link.CarefulRun.step _ _ .forward hsend trivial rfl
  have hdeliver := @Link.CarefulRun.step _ _ .deliver hforward trivial rfl
  have hobserve := @Link.CarefulRun.step _ _ (.observe ⟨"1"⟩) hdeliver trivial rfl
  have hcancel := @Link.CarefulRun.step _ _ (.cancel ⟨"1"⟩) hobserve trivial rfl
  exact @Link.CarefulRun.step _ _ (.giveUp ⟨"1"⟩ .unconfirmed) hcancel
    (fun cancel hphase => .inl (hgives cancel hphase)) rfl

end LateCancel

/-! ## A cancellation before the request is sent -/

namespace EarlyCancel

/-- The Turn is cancelled while its request waits for a permit. -/
def actions : List Action :=
  [.begin ⟨"1"⟩, .observe ⟨"1"⟩, .cancel ⟨"1"⟩, .acquire ⟨"1"⟩, .send ⟨"1"⟩, .forward, .forward,
    .deliver, .deliver, .giveUp ⟨"1"⟩ .unconfirmed]

theorem run_of_runFrom {link link' : Link} {actions : List Action} (hrun : Link.Run link)
    (hactions : runFrom link actions = some link') : Link.Run link' := by
  induction actions generalizing link with
  | nil =>
      obtain rfl := Option.some.inj hactions
      exact hrun
  | cons action actions ih =>
      obtain ⟨next, hnext, hrest⟩ := runFrom_cons.mp hactions
      exact ih (.step hrun hnext) hrest

/-- The Host runs the prompt, the Turn has ended and nothing is on its way any more. -/
theorem runs_on : ∃ link, runFrom Link.start actions = some link ∧
    link.hub ⟨"1"⟩ = .ended false ∧ link.host ⟨"1"⟩ = .running false ∧
    link.wire = [] ∧ link.outbox = [] :=
  ⟨_, rfl, rfl, rfl, rfl, rfl⟩

theorem not_stopped : ¬∀ link, Link.Run link → link.Stopped := by
  intro hstopped
  obtain ⟨link, hactions, hended, hrunning, hwire, houtbox⟩ := runs_on
  have hlink := hstopped link (run_of_runFrom .start hactions)
  apply hlink.stopped ⟨"1"⟩ hended _ hrunning
  rw [Link.Quiet, hwire, houtbox]
  exact ⟨List.not_mem_nil, List.not_mem_nil⟩

end EarlyCancel

end RemotePrompt

end Mews
