import Mathlib.Data.List.Infix
import Mews.Client.Frames

/-!
# Whose reply a caller is told

None of the lines that a call may read carries its id, but for the reply of the daemon to
it.  What a caller is told is therefore what the daemon has answered to its own request.
-/

namespace Mews.Client

open Protocol Lines

variable {Id Request Response : Type}

namespace LocalHub

variable {hub : LocalHub Id Request Response} {connection : LocalConnection Id Request Response}

/-! ## Replies on the way to the caller -/

theorem Sound.returned_cons (h : hub.Sound connection) {entry : Id × Request × Response}
    (hentry : entry ∈ connection.answered) :
    hub.Sound { connection with returned := entry :: connection.returned } where
  once := h.once
  current := h.current
  answered := h.answered
  returned := List.forall_mem_cons.mpr ⟨hentry, h.returned⟩
  lines := h.lines
  handled := h.handled
  begun := h.begun
  writing := h.writing
  delimited := h.delimited
  replies := h.replies
  reading := h.reading
  taking := h.taking

section Reading

variable {call : Call Id Request} {encoded used rest : List UInt8}

theorem arriving_reading (hcall : connection.call = some call)
    (hphase : call.phase = .reading encoded)
    (hinbound : connection.transport.inbound = used ++ rest) :
    connection.arriving = (encoded ++ used) ++ (rest ++ connection.transport.daemon.left) := by
  rw [LocalConnection.arriving, hcall, Option.map_some, hphase, Transport.replies, hinbound]
  simp only [Phase.encoded, Option.getD_some, List.append_assoc]

variable [DecidableEq Id]

/-- What a read that ends returns, the daemon has answered. -/
theorem Sound.conclude (h : hub.Sound connection) (hlawful : hub.Lawful)
    (hcall : connection.call = some call) (hphase : call.phase = .reading encoded)
    (hinbound : connection.transport.inbound = used ++ rest)
    (hline : (∃ text, newline ∉ text ∧ encoded ++ used = text ++ [newline]) ∨
      newline ∉ encoded ++ used) :
    hub.Sound (hub.conclude
      { connection with transport := { connection.transport with inbound := rest } } call
      (encoded ++ used)) := by
  have hcurrent := h.current call hcall
  rcases conclude_cases hub
    { connection with transport := { connection.transport with inbound := rest } } call
    (encoded ++ used) with hfail | ⟨frame, response, hframe, hresponse, hid, hlast, hreturned⟩
  · rw [hfail]
    obtain ⟨waiting, hwaits, heq⟩ := fail_cases hub
      { connection with transport := { connection.transport with inbound := rest } } call
    rw [heq]
    exact h.quiet hinbound (hwaits.quiet hcurrent)
  · rw [hreturned]
    have hquiet := h.quiet hinbound quiet_none
    apply hquiet.returned_cons
    obtain ⟨text, htext, hencoded⟩ := hline.resolve_right fun hnone =>
      hnone (List.mem_of_getLast? hlast)
    have hmem : encoded ++ used ∈ complete newline connection.arriving := by
      rw [arriving_reading hcall hphase hinbound, hencoded, complete_line_append _ htext]
      exact List.mem_cons_self
    rcases h.replies call hcall (hphase ▸ nofun) _ hmem with hreply | hother
    · obtain ⟨id, request, answer, hanswered, hreply⟩ := hreply
      rw [hreply] at hframe
      obtain ⟨-, hframeId, hread⟩ := hlawful.response id answer frame hframe
      obtain rfl : id = call.id := hframeId.symm.trans hid
      obtain rfl := hread response hresponse
      obtain rfl := h.once call.id request call.request
        (h.answered call.id request response hanswered) hcurrent
      exact hanswered
    · exact absurd hid (hother frame hframe)

/-- What a call reads: more of a reply, or the end of the read. -/
inductive Reads (hub : LocalHub Id Request Response)
    (connection : LocalConnection Id Request Response) (call : Call Id Request)
    (encoded : List UInt8) : LocalConnection Id Request Response → Prop where
  | more {used rest : List UInt8} (hshort : Short (encoded ++ used)) (hused : used ≠ [])
      (hinbound : connection.transport.inbound = used ++ rest) :
      Reads hub connection call encoded
        { connection with
          transport := { connection.transport with inbound := rest }
          call := some { call with phase := .reading (encoded ++ used) } }
  | ended {used rest : List UInt8} (hused : used ≠ [])
      (hinbound : connection.transport.inbound = used ++ rest)
      (hline : (∃ text, newline ∉ text ∧ encoded ++ used = text ++ [newline]) ∨
        newline ∉ encoded ++ used ∧ (encoded ++ used).length = maxHubFrameBytes + 1) :
      Reads hub connection call encoded
        (hub.conclude
          { connection with transport := { connection.transport with inbound := rest } } call
          (encoded ++ used))

theorem reads_read (hub : LocalHub Id Request Response) (call : Call Id Request) {count : ℕ}
    (hshort : Short encoded)
    (hinbound : connection.transport.inbound.take count ≠ []) :
    Reads hub connection call encoded (hub.read connection call encoded count) := by
  have htaken := readsUntil_takeUntil newline (maxHubFrameBytes + 1) encoded
    (connection.transport.inbound.take count)
  rw [read]
  dsimp only
  generalize takeUntil newline (maxHubFrameBytes + 1) encoded
    (connection.transport.inbound.take count) = used at htaken ⊢
  have hlength := htaken.length_le
  have hused := htaken.ne_nil (Nat.lt_succ_of_le hshort.2) hinbound
  obtain ⟨rest, hrest⟩ := htaken.begins.trans (List.take_prefix count connection.transport.inbound)
  have hdrop : connection.transport.inbound.drop used.length = rest := by
    rw [← hrest, List.drop_left]
  rw [hdrop]
  split_ifs with hgoes
  · exact .more (hshort.append hlength hgoes) hused hrest.symm
  · exact .ended hused hrest.symm (htaken.ended hshort.1 hused hgoes)

theorem Sound.reads (h : hub.Sound connection) (hlawful : hub.Lawful)
    (hcall : connection.call = some call) (hphase : call.phase = .reading encoded)
    {after : LocalConnection Id Request Response} (hreads : Reads hub connection call encoded after) :
    hub.Sound after := by
  cases hreads with
  | more hshort hused hinbound =>
      rename_i used rest
      have harriving : ({ connection with
          transport := { connection.transport with inbound := rest }
          call := some { call with phase := .reading (encoded ++ used) } } :
          LocalConnection Id Request Response).arriving = connection.arriving :=
        (arriving_reading hcall hphase hinbound).symm
      exact
        { once := h.once
          current := by
            intro current hcurrent
            rw [← Option.some.inj hcurrent]
            exact h.current call hcall
          answered := h.answered
          returned := h.returned
          lines := h.lines
          handled := h.handled
          begun := h.begun
          writing := by
            intro _ current rest hcurrent hwriting
            obtain rfl := Option.some.inj hcurrent
            exact nomatch hwriting
          delimited := by
            rw [harriving]
            exact h.delimited
          replies := by
            intro current hcurrent _
            obtain rfl := Option.some.inj hcurrent
            rw [harriving]
            exact h.replies call hcall (hphase ▸ nofun)
          reading := by
            intro current taken hcurrent hreading
            obtain rfl := Option.some.inj hcurrent
            rw [← Phase.reading.inj hreading]
            exact hshort
          taking := h.taking }
  | ended hused hinbound hline =>
      exact h.conclude hlawful hcall hphase hinbound (hline.imp_right And.left)

end Reading

/-! ## Runs -/

section Runs

variable [DecidableEq Id] {after : LocalConnection Id Request Response}

theorem Sound.step (h : hub.Sound connection) (hlawful : hub.Lawful) {action : Action Id Request}
    (hstep : hub.step connection action = some after) : hub.Sound after := by
  cases moves_of_step hstep with
  | calls hcall hfresh =>
      apply (h.called hcall hfresh.1).begins List.mem_cons_self
      intro line hline
      exact hfresh.2 connection.transport.replies ((List.mem_tails _ _).mpr List.suffix_rfl) line hline
  | writes hcall hphase halive hpasses => exact h.write hlawful hcall hphase halive
  | reads hcall hphase hinbound =>
      exact h.reads hlawful hcall hphase (reads_read hub _ (h.reading _ _ hcall hphase) hinbound)
  | breaks hcall hphase hended => exact h.fail (h.current _ hcall)
  | ends hcall hphase hended hinbound =>
      rename_i call encoded
      have hline : newline ∉ encoded ++ [] := by
        rw [List.append_nil]
        exact (h.reading call encoded hcall hphase).1
      have hnothing : connection.transport.inbound = [] ++ [] := hinbound
      have hconclude := h.conclude hlawful hcall hphase hnothing (Or.inr hline)
      rw [List.append_nil, ← hinbound] at hconclude
      exact hconclude
  | connects hcall hphase =>
      apply (h.connected hcall hphase).begins (h.current _ hcall)
      intro line hline
      exact absurd hline List.not_mem_nil
  | refused hcall hphase => exact h.fail (h.current _ hcall)
  | drops hcall => exact h.waits quiet_none
  | takes hdaemon houtbound =>
      exact h.takes hdaemon (takes_take (h.taking _ hdaemon) houtbound)
  | answers hdaemon => exact h.answer hlawful hdaemon
  | replies hdaemon hpasses => exact h.writes hdaemon (written_reply _ _ _)

end Runs

end LocalHub

end Mews.Client
