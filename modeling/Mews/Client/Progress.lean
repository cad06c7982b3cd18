import Mews.Client.Pairing

/-!
# Calls in progress

A call that is not over can always go on, but in a jam: when the daemon cannot write a
reply that nobody reads and the caller cannot write a frame that nobody reads.
-/

namespace Mews.Client

open Protocol Lines

variable {Id Request Response : Type}

/-- What happens where nobody drops a request and the daemon takes connections. -/
def Action.Undisturbed : Action Id Request → Prop
  | call _ _ => False
  | connect accepted => accepted = true
  | drop => False
  | _ => True

namespace LocalHub

variable {hub : LocalHub Id Request Response}
  {connection after : LocalConnection Id Request Response}

/-- More is left of the frame of the call and of the reply of the daemon than the socket
takes in either direction. -/
def Jammed (hub : LocalHub Id Request Response)
    (connection : LocalConnection Id Request Response) : Prop :=
  ∃ call rest left, connection.call = some call ∧ call.phase = .writing rest ∧
    connection.transport.daemon = .replying left ∧
    hub.outboundRoom < connection.transport.outbound.length + rest.length ∧
    hub.inboundRoom < connection.transport.inbound.length + left.length

/-! ## Calls in progress -/

/-- What a call that is not over waits for. -/
structure Lively (connection : LocalConnection Id Request Response) : Prop where
  untold : ∀ call, connection.call = some call → ∀ request response,
    (call.id, request, response) ∉ connection.returned
  started : ∀ call, connection.call = some call → call.attempt = 0 → call.phase ≠ .connecting
  awaits : ∀ call encoded, connection.call = some call → call.phase = .reading encoded →
    connection.transport.daemon = .ended ∨ newline ∈ connection.transport.sent ∨
      (∃ line, connection.transport.daemon = .handling line) ∨ connection.arriving ≠ []
  left : ∀ rest, connection.transport.daemon = .replying rest → rest ≠ []

theorem lively_new : Lively (LocalConnection.new : LocalConnection Id Request Response) where
  untold := nofun
  started := nofun
  awaits := nofun
  left := nofun

/-- What no caller was told. -/
def Untold (connection : LocalConnection Id Request Response) (call : Call Id Request) : Prop :=
  ∀ request response, (call.id, request, response) ∉ connection.returned

/-- A call that ends or waits. -/
theorem lively_waits {call : Call Id Request} {waiting : Option (Call Id Request)}
    (huntold : Untold connection call) (hwaits : Waits call waiting)
    (hleft : ∀ rest, connection.transport.daemon = .replying rest → rest ≠ []) :
    Lively { connection with call := waiting } := by
  cases hwaits with
  | ended =>
      exact { untold := nofun, started := nofun, awaits := nofun, left := hleft }
  | again =>
      exact
        { untold := by
            intro current hcurrent
            rw [← Option.some.inj hcurrent]
            exact huntold
          started := by
            intro current hcurrent hattempt
            rw [← Option.some.inj hcurrent] at hattempt
            exact nomatch hattempt
          awaits := by
            intro current encoded hcurrent hreading
            rw [← Option.some.inj hcurrent] at hreading
            exact nomatch hreading
          left := hleft }

theorem lively_fail {call : Call Id Request} (huntold : Untold connection call)
    (hleft : ∀ rest, connection.transport.daemon = .replying rest → rest ≠ []) :
    Lively (hub.fail connection call) := by
  obtain ⟨waiting, hwaits, heq⟩ := fail_cases hub connection call
  rw [heq]
  exact lively_waits huntold hwaits hleft

theorem once_cases (hub : LocalHub Id Request Response)
    (connection : LocalConnection Id Request Response) (call : Call Id Request) :
    maxHubFrameBytes < (hub.requestBytes call.id call.request).length ∧
        hub.once connection call = hub.fail connection call ∨
      (hub.requestBytes call.id call.request).length ≤ maxHubFrameBytes ∧
        hub.once connection call =
          { connection with
            call := some { call with
              phase := .writing (hub.requestBytes call.id call.request ++ [newline]) } } := by
  rw [once]
  split_ifs with hlong
  · exact Or.inl ⟨hlong, rfl⟩
  · exact Or.inr ⟨Nat.le_of_not_lt hlong, rfl⟩

theorem lively_once {call : Call Id Request} (huntold : Untold connection call)
    (hleft : ∀ rest, connection.transport.daemon = .replying rest → rest ≠ []) :
    Lively (hub.once connection call) := by
  rcases once_cases hub connection call with ⟨-, hfail⟩ | ⟨-, honce⟩
  · rw [hfail]
    exact lively_fail huntold hleft
  · rw [honce]
    exact
      { untold := by
          intro current hcurrent
          rw [← Option.some.inj hcurrent]
          exact huntold
        started := by
          intro current hcurrent _
          rw [← Option.some.inj hcurrent]
          exact nofun
        awaits := by
          intro current encoded hcurrent hreading
          rw [← Option.some.inj hcurrent] at hreading
          exact nomatch hreading
        left := hleft }

section Steps

variable {call : Call Id Request} {encoded : List UInt8}

/-- A call that goes on with what it waits for. -/
theorem Lively.goes_on (h : Lively connection) (hcall : connection.call = some call)
    {phase : Phase} {transport : Transport} (hphase : phase ≠ .connecting)
    (hawaits : ∀ encoded, phase = .reading encoded →
      transport.daemon = .ended ∨ newline ∈ transport.sent ∨
        (∃ line, transport.daemon = .handling line) ∨ encoded ++ transport.replies ≠ [])
    (hleft : ∀ rest, transport.daemon = .replying rest → rest ≠ []) :
    Lively { connection with transport, call := some { call with phase } } where
  untold current hcurrent := by
    rw [← Option.some.inj hcurrent]
    exact h.untold call hcall
  started current hcurrent _ := by
    rw [← Option.some.inj hcurrent]
    exact hphase
  awaits current encoded hcurrent hreading := by
    obtain rfl := Option.some.inj hcurrent
    obtain rfl : phase = .reading encoded := hreading
    exact hawaits encoded rfl
  left := hleft

/-- A step of the daemon. -/
theorem Lively.of_transport (h : Lively connection) {transport : Transport}
    (hawaits : connection.transport.daemon = .ended ∨ newline ∈ connection.transport.sent ∨
        (∃ line, connection.transport.daemon = .handling line) ∨ connection.arriving ≠ [] →
      transport.daemon = .ended ∨ newline ∈ transport.sent ∨
        (∃ line, transport.daemon = .handling line) ∨
          ({ connection with transport } : LocalConnection Id Request Response).arriving ≠ [])
    (hleft : ∀ rest, transport.daemon = .replying rest → rest ≠ []) :
    Lively { connection with transport } where
  untold := h.untold
  started := h.started
  awaits call encoded hcall hphase := hawaits (h.awaits call encoded hcall hphase)
  left := hleft

theorem Lively.write (h : Lively connection) (hsound : hub.Sound connection)
    {rest : List UInt8} {count : ℕ} (hcall : connection.call = some call)
    (hphase : call.phase = .writing rest) (halive : connection.transport.daemon ≠ .ended) :
    Lively (write connection call rest count) := by
  rw [LocalHub.write]
  apply h.goes_on hcall
  · split_ifs
    · exact Phase.noConfusion
    · exact Phase.noConfusion
  · intro encoded hreading
    split_ifs at hreading with hdone
    obtain ⟨hrest, begun, written, -, -, hframe⟩ := hsound.writing halive call rest hcall hphase
    obtain ⟨tail, htail, -⟩ := frame_left hrest hframe
    right
    left
    have hall : rest.take count = rest := by
      have hsplit := List.take_append_drop count rest
      rwa [hdone, List.append_nil] at hsplit
    rw [hall, htail]
    exact List.mem_append_right _ (List.mem_append_right _
      (List.mem_append_right _ (List.mem_singleton_self newline)))
  · exact h.left

theorem Lively.takes (h : Lively connection) (hdaemon : connection.transport.daemon = .reading encoded)
    {transport : Transport} (htakes : Takes connection.transport encoded transport) :
    Lively { connection with transport } := by
  have hreplies := htakes.replies hdaemon
  cases htakes with
  | more hshort hused houtbound =>
      apply h.of_transport
      · intro hawaits
        rw [sent_reading hdaemon houtbound] at hawaits
        rcases hawaits with hended | hsent | ⟨line, hhandling⟩ | harriving
        · cases hdaemon.symm.trans hended
        · exact Or.inr (Or.inl hsent)
        · cases hdaemon.symm.trans hhandling
        · right
          right
          right
          rw [LocalConnection.arriving, hreplies]
          exact harriving
      · intro left hleft
        cases hleft
  | exceeded =>
      apply h.of_transport
      · exact fun _ => Or.inl rfl
      · intro left hleft
        cases hleft
  | line =>
      apply h.of_transport
      · exact fun _ => Or.inr (Or.inr (Or.inl ⟨_, rfl⟩))
      · intro left hleft
        cases hleft

theorem Lively.writes (h : Lively connection) {rest : List UInt8} {count : ℕ}
    {transport : Transport} (hdaemon : connection.transport.daemon = .replying rest)
    (hwritten : Written connection.transport rest count transport) :
    Lively { connection with transport } := by
  apply h.of_transport
  · intro hawaits
    rcases hawaits with hended | hsent | ⟨line, hhandling⟩ | harriving
    · cases hdaemon.symm.trans hended
    · rw [← hwritten.sent hdaemon] at hsent
      exact Or.inr (Or.inl hsent)
    · cases hdaemon.symm.trans hhandling
    · right
      right
      right
      rw [LocalConnection.arriving, hwritten.replies hdaemon]
      exact harriving
  · intro later hlater
    rcases hwritten.daemon with ⟨-, hafter⟩ | ⟨hmore, hafter⟩
    · cases hafter.symm.trans hlater
    · rw [← Daemon.replying.inj (hafter.symm.trans hlater)]
      exact hmore

theorem Lively.hangUp (h : Lively connection) : Lively (hangUp connection) := by
  apply h.of_transport
  · exact fun _ => Or.inl rfl
  · exact nofun

theorem Lively.respond (h : Lively connection) (id : Id) (response : Response) :
    Lively (hub.respond connection id response) := by
  rw [LocalHub.respond]
  split_ifs
  · exact h.hangUp
  · apply h.of_transport
    · intro _
      right
      right
      right
      exact List.append_ne_nil_of_right_ne_nil _
        (List.append_ne_nil_of_right_ne_nil _ (List.concat_ne_nil _ _))
    · intro rest hreplying
      rw [← Daemon.replying.inj hreplying]
      exact List.concat_ne_nil _ _

theorem Lively.answered (h : Lively connection) (entry : Id × Request × Response) :
    Lively { connection with answered := entry :: connection.answered } where
  untold := h.untold
  started := h.started
  awaits := h.awaits
  left := h.left

variable [DecidableEq Id]

theorem Lively.conclude (h : Lively connection) (hcall : connection.call = some call)
    {inbound used : List UInt8} :
    Lively (hub.conclude
      { connection with transport := { connection.transport with inbound } } call used) := by
  rcases conclude_cases hub
    { connection with transport := { connection.transport with inbound } } call used with
    hfail | ⟨frame, response, -, -, -, -, hreturned⟩
  · rw [hfail]
    exact lively_fail (h.untold call hcall) h.left
  · rw [hreturned]
    exact { untold := nofun, started := nofun, awaits := nofun, left := h.left }

theorem Lively.reads (h : Lively connection) (hcall : connection.call = some call)
    (hreads : Reads hub connection call encoded after) : Lively after := by
  cases hreads with
  | more hshort hused hinbound =>
      apply h.goes_on hcall
      · exact nofun
      · intro taken htaken
        rw [← Phase.reading.inj htaken]
        right
        right
        right
        exact List.append_ne_nil_of_left_ne_nil
          (List.append_ne_nil_of_right_ne_nil encoded hused) _
      · exact h.left
  | ended => exact h.conclude hcall

theorem Lively.step (h : Lively connection) (hsound : hub.Sound connection) (hlawful : hub.Lawful)
    {action : Action Id Request} (hstep : hub.step connection action = some after) :
    Lively after := by
  cases moves_of_step hstep with
  | calls hcall hfresh =>
      apply lively_once
      · intro request response hmem
        have hcalled := hsound.answered _ _ _ (hsound.returned _ hmem)
        exact hfresh.1 (List.mem_map_of_mem hcalled)
      · exact h.left
  | writes hcall hphase halive hpasses => exact h.write hsound hcall hphase halive
  | reads hcall hphase hinbound =>
      exact h.reads hcall (reads_read hub _ (hsound.reading _ _ hcall hphase) hinbound)
  | breaks hcall hphase hended => exact lively_fail (h.untold _ hcall) h.left
  | ends hcall hphase hended hinbound => exact h.conclude hcall
  | connects hcall hphase => exact lively_once (h.untold _ hcall) nofun
  | refused hcall hphase => exact lively_fail (h.untold _ hcall) h.left
  | drops hcall =>
      exact { untold := nofun, started := nofun, awaits := nofun, left := h.left }
  | takes hdaemon houtbound =>
      exact h.takes hdaemon (takes_take (hsound.taking _ hdaemon) houtbound)
  | answers hdaemon =>
      rcases hsound.answer_cases hlawful hdaemon with ⟨hended, -⟩ | ⟨id, request, -, -, hanswer⟩
      · rw [hended]
        exact h.hangUp
      · rw [hanswer]
        exact (h.answered _).respond _ _
  | replies hdaemon hpasses => exact h.writes hdaemon (written_reply _ _ _)

end Steps

/-! ## Ways on -/

variable [DecidableEq Id]

/-- A step where nothing disturbs the call. -/
def Goes (hub : LocalHub Id Request Response)
    (connection after : LocalConnection Id Request Response) : Prop :=
  ∃ action : Action Id Request, action.Undisturbed ∧ hub.step connection action = some after

/-- What is on the socket can be moved by a byte. -/
theorem passes_one {room : ℕ} {held rest : List UInt8} (hrest : rest ≠ [])
    (hroom : held.length < room) : Passes room held rest 1 :=
  ⟨Nat.one_pos, List.length_pos_of_ne_nil hrest, hroom⟩

theorem take_one_ne_nil {bytes : List UInt8} (hbytes : bytes ≠ []) : bytes.take 1 ≠ [] := by
  cases bytes with
  | nil => exact absurd rfl hbytes
  | cons byte bytes => exact List.cons_ne_nil _ _

theorem goes_of_isSome (action : Action Id Request) (haction : action.Undisturbed)
    (hstep : (hub.step connection action).isSome) : ∃ after, hub.Goes connection after := by
  obtain ⟨after, hafter⟩ := Option.isSome_iff_exists.mp hstep
  exact ⟨after, action, haction, hafter⟩

/-- The daemon goes on unless it waits for the client. -/
theorem goes_daemon
    (hdaemon : (∃ encoded, connection.transport.daemon = .reading encoded ∧
        connection.transport.outbound ≠ []) ∨
      (∃ line, connection.transport.daemon = .handling line) ∨
      ∃ rest, connection.transport.daemon = .replying rest ∧ rest ≠ [] ∧
        connection.transport.inbound.length < hub.inboundRoom) :
    ∃ after, hub.Goes connection after := by
  rcases hdaemon with ⟨encoded, hdaemon, houtbound⟩ | ⟨line, hdaemon⟩ |
    ⟨rest, hdaemon, hrest, hroom⟩
  · apply goes_of_isSome (.take 1) trivial
    simp only [step, hdaemon]
    rw [if_pos (take_one_ne_nil houtbound)]
    rfl
  · apply goes_of_isSome .answer trivial
    simp only [step, hdaemon]
    rfl
  · apply goes_of_isSome (.reply 1) trivial
    simp only [step, hdaemon]
    rw [if_pos (passes_one hrest hroom)]
    rfl

/-- A call that is not over can always go on, but in a jam. -/
theorem Sound.goes (h : hub.Sound connection) (hlively : Lively connection)
    (hjam : ¬hub.Jammed connection) (houtbound : 0 < hub.outboundRoom)
    (hinbound : 0 < hub.inboundRoom) {call : Call Id Request}
    (hcall : connection.call = some call) : ∃ after, hub.Goes connection after := by
  cases hphase : call.phase with
  | connecting =>
      apply goes_of_isSome (.connect true) rfl
      simp only [LocalHub.step, hcall]
      rw [if_pos hphase]
      rfl
  | writing rest =>
      cases hdaemon : connection.transport.daemon with
      | ended =>
          apply goes_of_isSome .broken trivial
          simp only [LocalHub.step, hcall, hphase]
          rw [if_pos hdaemon]
          rfl
      | reading encoded =>
          by_cases hroom : connection.transport.outbound.length < hub.outboundRoom
          · have halive : connection.transport.daemon ≠ .ended := by
              rw [hdaemon]
              exact Daemon.noConfusion
            have hrest := (h.writing halive call rest hcall hphase).ne_nil
            apply goes_of_isSome (.write 1) trivial
            simp only [LocalHub.step, hcall, hphase]
            rw [if_pos ⟨halive, passes_one hrest hroom⟩]
            rfl
          · apply goes_daemon
            refine Or.inl ⟨encoded, hdaemon, ?_⟩
            apply List.ne_nil_of_length_pos
            omega
      | handling line => exact goes_daemon (Or.inr (Or.inl ⟨line, hdaemon⟩))
      | replying left =>
          have halive : connection.transport.daemon ≠ .ended := by
            rw [hdaemon]
            exact Daemon.noConfusion
          have hrest := (h.writing halive call rest hcall hphase).ne_nil
          have hleft := hlively.left left hdaemon
          by_cases hroom : connection.transport.outbound.length < hub.outboundRoom
          · apply goes_of_isSome (.write 1) trivial
            simp only [LocalHub.step, hcall, hphase]
            rw [if_pos ⟨halive, passes_one hrest hroom⟩]
            rfl
          · apply goes_daemon
            refine Or.inr (Or.inr ⟨left, hdaemon, hleft, ?_⟩)
            by_contra hfull
            apply hjam
            have hrestPos := List.length_pos_of_ne_nil hrest
            have hleftPos := List.length_pos_of_ne_nil hleft
            exact ⟨call, rest, left, hcall, hphase, hdaemon, by omega, by omega⟩
  | reading encoded =>
      by_cases hnil : connection.transport.inbound = []
      · have hfree : connection.transport.inbound.length < hub.inboundRoom := by
          rw [hnil]
          exact hinbound
        cases hdaemon : connection.transport.daemon with
        | ended =>
            apply goes_of_isSome .broken trivial
            simp only [LocalHub.step, hcall, hphase]
            rw [if_pos hdaemon, if_pos hnil]
            rfl
        | reading taken =>
            apply goes_daemon
            refine Or.inl ⟨taken, hdaemon, ?_⟩
            rcases hlively.awaits call encoded hcall hphase with
              hended | hsent | ⟨line, hhandling⟩ | harriving
            · cases hdaemon.symm.trans hended
            · rw [Transport.sent, hdaemon] at hsent
              exact List.ne_nil_of_mem ((List.mem_append.mp hsent).resolve_left
                (h.taking taken hdaemon).1)
            · cases hdaemon.symm.trans hhandling
            · -- What the call has read has no newline, and nothing follows.
              exfalso
              have hdelimited := h.delimited
              have heq : connection.arriving = encoded := by
                rw [LocalConnection.arriving, hcall, Option.map_some, hphase, Transport.replies,
                  hnil, hdaemon]
                exact List.append_nil encoded
              rw [heq] at harriving hdelimited
              rcases hdelimited with hnone | hlast
              · exact harriving hnone
              · exact (h.reading call encoded hcall hphase).1 (List.mem_of_getLast? hlast)
        | handling line => exact goes_daemon (Or.inr (Or.inl ⟨line, hdaemon⟩))
        | replying left =>
            exact goes_daemon (Or.inr (Or.inr ⟨left, hdaemon, hlively.left left hdaemon, hfree⟩))
      · apply goes_of_isSome (.read 1) trivial
        simp only [LocalHub.step, hcall, hphase]
        rw [if_pos (take_one_ne_nil hnil)]
        rfl

end LocalHub

end Mews.Client
