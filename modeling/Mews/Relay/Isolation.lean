import Mews.Relay.Router

/-!
# Connections do not reach into each other

What the router keeps from step to step: a route belongs to the connection that
was registered last for its key, whatever is in a channel was put there by a
connection of the peer that the frame names, and what a peer has received is
what was sent to it, in that order.  Generations are numbers of 64 bits, so that
this is about routers with fewer registrations than that.
-/

namespace Mews.Relay

open Protocol Transport

variable {Admission : Type}

namespace Router

section Views

variable (router : Router Admission)

def keyOf (index : ℕ) : Option RouteKey := router.connections[index]?.map RelayConnection.key

/-- What was put into the channel of a connection. -/
def sentTo (index : ℕ) : List RelayFrame :=
  (router.sent.filter fun entry => entry.2.1 = index).map fun entry => entry.2.2

/-- What a connection has sent, with where it went. -/
def sentBy (index : ℕ) : List (ℕ × RelayFrame) :=
  (router.sent.filter fun entry => entry.1 = index).map Prod.snd

def deliveredTo (index : ℕ) : List RelayFrame :=
  (router.delivered.filter fun entry => entry.1 = index).map Prod.snd

def sentToPeer (key : RouteKey) : List RelayFrame :=
  (router.sent.filter fun entry => router.keyOf entry.2.1 = some key).map fun entry => entry.2.2

def deliveredToPeer (key : RouteKey) : List RelayFrame :=
  (router.delivered.filter fun entry => router.keyOf entry.1 = some key).map Prod.snd

/-- What the connection that has the route of a key has not returned yet. -/
def pendingOf (key : RouteKey) : List RelayFrame :=
  match router.routes key with
  | none => []
  | some route => (router.connections[route.sender]?.map RelayConnection.pending).getD []

end Views

/-- The connection has the route of its key. -/
def HasRoute (router : Router Admission) (index : ℕ) : Prop :=
  ∃ key route, router.keyOf index = some key ∧ router.routes key = some route ∧
    route.sender = index

/-- The peer has proved that it holds the key of an enrolled identity. -/
structure Authenticated (isEnrolled : Time → RelayIdentity Admission → Bool)
    (router : Router Admission) (connection : RelayConnection Admission) : Prop where
  enrolled : ∃ now, isEnrolled now connection.identity = true
  proved : (connection.identity.publicKey,
    registrationMessage connection.identity connection.challenge) ∈ router.signed

/-- The connection may have put the frame into the channel of the destination. -/
structure Addressed (connection destination : RelayConnection Admission)
    (frame : RelayFrame) : Prop where
  installation : frame.installationId = connection.identity.installationId
  source : frame.sourceId = connection.identity.peerId
  destination : destination.key = {
    installationId := frame.installationId
    authorityPublicKey := connection.identity.authorityPublicKey
    peerId := frame.destinationId }

structure Kept (isEnrolled : Time → RelayIdentity Admission → Bool) (router : Router Admission) :
    Prop where
  generations : ∀ index connection, router.connections[index]? = some connection →
    connection.generation = (index + 1) % 2 ^ 64
  next : router.nextGeneration = router.connections.length % 2 ^ 64
  routed : ∀ key route, router.routes key = some route →
    router.keyOf route.sender = some key ∧ route.generation = (route.sender + 1) % 2 ^ 64
  latest : ∀ key route, router.routes key = some route → ∀ index,
    router.keyOf index = some key → index ≤ route.sender
  authentic : ∀ connection ∈ router.connections, Authenticated isEnrolled router connection
  addressed : ∀ entry ∈ router.sent, ∃ connection destination,
    router.connections[entry.1]? = some connection ∧
      router.connections[entry.2.1]? = some destination ∧
      Addressed connection destination entry.2.2
  known : ∀ entry ∈ router.delivered, entry.1 < router.connections.length
  in_order : ∀ index connection, router.connections[index]? = some connection →
    (router.deliveredTo index ++ connection.pending).Sublist (router.sentTo index)
  peers_in_order : ∀ key,
    (router.deliveredToPeer key ++ router.pendingOf key).Sublist (router.sentToPeer key)

section Update

variable {router : Router Admission} {index other : ℕ}
  {connection changed : RelayConnection Admission}

theorem connections_update (hconnection : router.connections[index]? = some connection) :
    (router.update index changed).connections[other]? =
      if index = other then some changed else router.connections[other]? := by
  have hlength := (List.getElem?_eq_some_iff.mp hconnection).1
  rw [update]
  by_cases heq : index = other
  · rw [if_pos heq, ← heq, List.getElem?_set_self hlength]
  · rw [if_neg heq, List.getElem?_set_ne heq]

theorem keyOf_update (hconnection : router.connections[index]? = some connection)
    (hidentity : changed.identity = connection.identity) :
    (router.update index changed).keyOf = router.keyOf := by
  funext other
  rw [keyOf, keyOf, connections_update hconnection]
  split
  case isTrue heq =>
    rw [← heq, hconnection, Option.map_some, Option.map_some, RelayConnection.key, hidentity]
    rfl
  case isFalse => rfl

theorem keyOf_lt {key : RouteKey} (hkey : router.keyOf index = some key) :
    index < router.connections.length := by
  obtain ⟨connection, hconnection, -⟩ := Option.map_eq_some_iff.mp hkey
  exact (List.getElem?_eq_some_iff.mp hconnection).1

/-- While generations do not repeat, the current connection of a key is the one its
route sends to. -/
theorem Kept.sender_of_isCurrent {isEnrolled : Time → RelayIdentity Admission → Bool}
    (hrouter : Kept isEnrolled router) (hbound : router.connections.length < 2 ^ 64)
    (hconnection : router.connections[index]? = some connection)
    (hcurrent : router.isCurrent connection = true) :
    ∃ route, router.routes connection.key = some route ∧ route.sender = index := by
  obtain ⟨route, hroute, hgeneration⟩ := (Option.any_eq_true _ _).mp hcurrent
  refine ⟨route, hroute, ?_⟩
  obtain ⟨hkey, hroutes⟩ := hrouter.routed _ _ hroute
  have hsender := keyOf_lt hkey
  have hindex := (List.getElem?_eq_some_iff.mp hconnection).1
  have hequal := of_decide_eq_true hgeneration
  rw [hroutes, hrouter.generations _ _ hconnection, Nat.mod_eq_of_lt (by omega),
    Nat.mod_eq_of_lt (by omega)] at hequal
  omega

end Update

/-! ## What every step keeps -/

namespace Kept

variable {isEnrolled : Time → RelayIdentity Admission → Bool}
  {router : Router Admission} (hrouter : Kept isEnrolled router)

include hrouter

theorem administered {owners : Bool} {registrations : List (RelayRegistration Admission)}
    {signed : List (String × List UInt8)} (hsigned : router.signed <+: signed) :
    Kept isEnrolled { router with owners, registrations, signed } :=
  { hrouter with
    authentic := by
      intro connection hconnection
      obtain ⟨henrolled, hproved⟩ := hrouter.authentic connection hconnection
      exact ⟨henrolled, hsigned.subset hproved⟩ }

section Registered

variable {registration : RelayRegistration Admission}
  (registrations : List (RelayRegistration Admission))

omit hrouter in
theorem keyOf_append {connection : RelayConnection Admission} {index : ℕ}
    (hindex : index < router.connections.length) :
    ({ router with connections := router.connections ++ [connection] } : Router Admission).keyOf
      index = router.keyOf index := by
  rw [keyOf, keyOf, List.getElem?_append_left hindex]

theorem sent_known : ∀ entry ∈ router.sent, entry.2.1 < router.connections.length := by
  intro entry hentry
  obtain ⟨-, destination, -, hdestination, -⟩ := hrouter.addressed entry hentry
  exact (List.getElem?_eq_some_iff.mp hdestination).1

theorem registered (henrolled : ∃ now, isEnrolled now registration.identity = true)
    (hproved : (registration.identity.publicKey,
      registrationMessage registration.identity registration.challenge) ∈ router.signed) :
    Kept isEnrolled { router with
      registrations
      nextGeneration := (router.nextGeneration + 1) % 2 ^ 64
      routes := Function.update router.routes registration.identity.routeKey
        (some { generation := (router.nextGeneration + 1) % 2 ^ 64
                sender := router.connections.length })
      connections := router.connections ++ [{
        identity := registration.identity
        challenge := registration.challenge
        generation := (router.nextGeneration + 1) % 2 ^ 64
        queue := []
        receiving := .idle
        dropped := false }] } := by
  have hgeneration : (router.nextGeneration + 1) % 2 ^ 64 =
      (router.connections.length + 1) % 2 ^ 64 := by
    rw [hrouter.next, Nat.mod_add_mod]
  generalize hadded : ({
        identity := registration.identity
        challenge := registration.challenge
        generation := (router.nextGeneration + 1) % 2 ^ 64
        queue := []
        receiving := .idle
        dropped := false } : RelayConnection Admission) = added
  have hcases : ∀ index connection, (router.connections ++ [added])[index]? = some connection →
      router.connections[index]? = some connection ∨
        index = router.connections.length ∧ connection = added := by
    intro index connection hconnection
    rw [List.getElem?_append] at hconnection
    split at hconnection
    case isTrue => exact Or.inl hconnection
    case isFalse hindex =>
      obtain ⟨hlength, hvalue⟩ := List.getElem?_eq_some_iff.mp hconnection
      rw [List.length_singleton] at hlength
      refine Or.inr ⟨by omega, ?_⟩
      rw [← hvalue]
      simp
  have hkept : ∀ {index : ℕ} {connection : RelayConnection Admission},
      router.connections[index]? = some connection →
      (router.connections ++ [added])[index]? = some connection := by
    intro index connection hconnection
    rw [List.getElem?_append_left (List.getElem?_eq_some_iff.mp hconnection).1]
    exact hconnection
  constructor
  case generations =>
    intro index connection hconnection
    obtain hold | ⟨rfl, rfl⟩ := hcases index connection hconnection
    · exact hrouter.generations index connection hold
    · rw [← hadded]
      exact hgeneration
  case next =>
    rw [List.length_append, List.length_singleton]
    exact hgeneration
  case routed =>
    intro key route hroute
    dsimp only at hroute
    by_cases hkey : key = registration.identity.routeKey
    · rw [hkey, Function.update_self] at hroute
      obtain rfl := Option.some.inj hroute
      refine ⟨?_, hgeneration⟩
      rw [keyOf, List.getElem?_append_right (Nat.le_refl _), Nat.sub_self, List.getElem?_cons_zero,
        ← hadded, hkey]
      rfl
    · rw [Function.update_of_ne hkey] at hroute
      obtain ⟨hsender, hroutes⟩ := hrouter.routed key route hroute
      refine ⟨?_, hroutes⟩
      exact (keyOf_append (keyOf_lt hsender)).trans hsender
  case latest =>
    intro key route hroute index hindex
    have hlength := keyOf_lt hindex
    dsimp only at hroute hlength
    rw [List.length_append, List.length_singleton] at hlength
    by_cases hkey : key = registration.identity.routeKey
    · rw [hkey, Function.update_self] at hroute
      obtain rfl := Option.some.inj hroute
      exact Nat.le_of_lt_succ hlength
    · rw [Function.update_of_ne hkey] at hroute
      obtain hold | rfl := Nat.lt_or_eq_of_le (Nat.le_of_lt_succ hlength)
      · exact hrouter.latest key route hroute index ((keyOf_append hold).symm.trans hindex)
      · exfalso
        apply hkey
        rw [keyOf, List.getElem?_append_right (Nat.le_refl _), Nat.sub_self,
          List.getElem?_cons_zero, ← hadded] at hindex
        exact (Option.some.inj hindex).symm
  case authentic =>
    intro connection hconnection
    rw [List.mem_append, List.mem_singleton] at hconnection
    obtain hold | rfl := hconnection
    · obtain ⟨hold, hsigned⟩ := hrouter.authentic connection hold
      exact ⟨hold, hsigned⟩
    · rw [← hadded]
      exact ⟨henrolled, hproved⟩
  case addressed =>
    intro entry hentry
    obtain ⟨connection, destination, hconnection, hdestination, haddressed⟩ :=
      hrouter.addressed entry hentry
    exact ⟨connection, destination, hkept hconnection, hkept hdestination, haddressed⟩
  case known =>
    intro entry hentry
    rw [List.length_append]
    exact Nat.lt_add_right _ (hrouter.known entry hentry)
  case in_order =>
    intro index connection hconnection
    obtain hold | ⟨rfl, rfl⟩ := hcases index connection hconnection
    · exact hrouter.in_order index connection hold
    · have hnone : router.deliveredTo router.connections.length = [] := by
        rw [deliveredTo, List.map_eq_nil_iff, List.filter_eq_nil_iff]
        intro entry hentry heq
        have hknown := hrouter.known entry hentry
        rw [of_decide_eq_true heq] at hknown
        exact Nat.lt_irrefl _ hknown
      have hdelivered : List.Sublist
          (router.deliveredTo router.connections.length ++ connection.pending)
          (router.sentTo router.connections.length) := by
        rw [hnone, ← hadded]
        exact List.nil_sublist _
      exact hdelivered
  case peers_in_order =>
    intro key
    have hsent : (router.sentToPeer key).Sublist
        (sentToPeer { router with connections := router.connections ++ [added] } key) := by
      have hsame : router.sent.filter (fun entry => router.keyOf entry.2.1 = some key) =
          router.sent.filter (fun entry =>
            ({ router with connections := router.connections ++ [added] } : Router Admission).keyOf
              entry.2.1 = some key) := by
        apply List.filter_congr
        intro entry hentry
        rw [keyOf_append (hrouter.sent_known entry hentry)]
      unfold sentToPeer
      rw [hsame]
    have hdelivered : (deliveredToPeer
        { router with connections := router.connections ++ [added] } key).Sublist
          (router.deliveredToPeer key) := by
      have hsame : router.delivered.filter (fun entry => router.keyOf entry.1 = some key) =
          router.delivered.filter (fun entry =>
            ({ router with connections := router.connections ++ [added] } : Router Admission).keyOf
              entry.1 = some key) := by
        apply List.filter_congr
        intro entry hentry
        rw [keyOf_append (hrouter.known entry hentry)]
      unfold deliveredToPeer
      rw [hsame]
    have hpending : ∀ routes : RouteKey → Option Route,
        (routes key = router.routes key ∨
          ∃ route, routes key = some route ∧ route.sender = router.connections.length) →
        (pendingOf { router with
          routes := routes, connections := router.connections ++ [added] } key).Sublist
            (router.pendingOf key) := by
      intro routes hroutes
      unfold pendingOf
      dsimp only
      obtain hsame | ⟨route, hroute, hsender⟩ := hroutes
      · rw [hsame]
        cases hroute : router.routes key with
        | none => exact List.Sublist.refl _
        | some route =>
            have hlength := keyOf_lt (hrouter.routed key route hroute).1
            dsimp only
            rw [List.getElem?_append_left hlength]
      · rw [hroute]
        dsimp only
        rw [hsender, List.getElem?_append_right (Nat.le_refl _), Nat.sub_self, ← hadded]
        exact List.nil_sublist _
    have hroutes : ∀ route : Route, route.sender = router.connections.length →
        Function.update router.routes registration.identity.routeKey (some route) key =
            router.routes key ∨
          ∃ found, Function.update router.routes registration.identity.routeKey (some route) key =
            some found ∧ found.sender = router.connections.length := by
      intro route hsender
      by_cases hkey : key = registration.identity.routeKey
      · refine Or.inr ⟨route, ?_, hsender⟩
        rw [hkey, Function.update_self]
      · exact Or.inl (Function.update_of_ne hkey _ _)
    have hpeer := hrouter.peers_in_order key
    exact (hdelivered.append (hpending _ (hroutes _ rfl))).trans (hpeer.trans hsent)

end Registered

section Updated

variable {index : ℕ} {connection changed : RelayConnection Admission}
  (hconnection : router.connections[index]? = some connection)
  (hidentity : changed.identity = connection.identity)
  (hchallenge : changed.challenge = connection.challenge)
  (hgeneration : changed.generation = connection.generation)

include hconnection hidentity hchallenge hgeneration

omit hidentity hchallenge in
theorem updated_generations : ∀ other found,
    (router.update index changed).connections[other]? = some found →
      found.generation = (other + 1) % 2 ^ 64 := by
  intro other found hfound
  rw [connections_update hconnection] at hfound
  split at hfound
  case isTrue heq =>
    obtain rfl := Option.some.inj hfound
    rw [hgeneration, ← heq]
    exact hrouter.generations index connection hconnection
  case isFalse => exact hrouter.generations other found hfound

omit hgeneration in
theorem updated_authentic : ∀ found ∈ (router.update index changed).connections,
    Authenticated isEnrolled router found := by
  intro found hfound
  obtain hold | rfl := List.mem_or_eq_of_mem_set hfound
  · exact hrouter.authentic found hold
  · obtain ⟨henrolled, hproved⟩ :=
      hrouter.authentic connection (List.mem_of_getElem? hconnection)
    rw [← hidentity] at henrolled hproved
    rw [← hchallenge] at hproved
    exact ⟨henrolled, hproved⟩

omit hrouter hchallenge hgeneration in
theorem updated_addressed {source : ℕ} {other : ℕ} {frame : RelayFrame}
    (haddressed : ∃ sender destination, router.connections[source]? = some sender ∧
      router.connections[other]? = some destination ∧ Addressed sender destination frame) :
    ∃ sender destination, (router.update index changed).connections[source]? = some sender ∧
      (router.update index changed).connections[other]? = some destination ∧
      Addressed sender destination frame := by
  obtain ⟨sender, destination, hsender, hdestination, hinstallation, hsource, hkey⟩ := haddressed
  have hsame : ∀ {number : ℕ} {found : RelayConnection Admission},
      router.connections[number]? = some found →
      ∃ found', (router.update index changed).connections[number]? = some found' ∧
        found'.identity = found.identity := by
    intro number found hfound
    rw [connections_update hconnection]
    split
    case isTrue heq =>
      rw [← heq, hconnection] at hfound
      obtain rfl := Option.some.inj hfound
      exact ⟨changed, rfl, hidentity⟩
    case isFalse => exact ⟨found, hfound, rfl⟩
  obtain ⟨sender', hsender', hsenderSame⟩ := hsame hsender
  obtain ⟨destination', hdestination', hdestinationSame⟩ := hsame hdestination
  refine ⟨sender', destination', hsender', hdestination', ?_, ?_, ?_⟩
  · rw [hsenderSame]
    exact hinstallation
  · rw [hsenderSame]
    exact hsource
  · rw [hsenderSame, RelayConnection.key, hdestinationSame]
    exact hkey

omit hrouter hchallenge hgeneration hidentity in
theorem pendingOf_update (key : RouteKey) :
    (router.update index changed).pendingOf key =
      if (router.routes key).any (fun route => route.sender = index) then changed.pending
      else router.pendingOf key := by
  unfold pendingOf
  have hroutes : (router.update index changed).routes key = router.routes key := rfl
  rw [hroutes]
  cases router.routes key with
  | none => rfl
  | some route =>
      dsimp only [Option.any_some]
      rw [connections_update hconnection]
      by_cases hsender : route.sender = index
      · rw [if_pos hsender.symm, if_pos (by simpa using hsender)]
        rfl
      · rw [if_neg (Ne.symm hsender), if_neg (by simpa using hsender)]

omit hrouter hchallenge hgeneration hidentity in
theorem pendingOf_of_sender {key : RouteKey}
    (hsender : (router.routes key).any (fun route => route.sender = index) = true) :
    router.pendingOf key = connection.pending := by
  obtain ⟨route, hroute, hsender⟩ := (Option.any_eq_true _ _).mp hsender
  unfold pendingOf
  rw [hroute]
  dsimp only
  rw [of_decide_eq_true hsender, hconnection]
  rfl

theorem progressed (hpending : changed.pending.Sublist connection.pending) :
    Kept isEnrolled (router.update index changed) := by
  have hkeys := keyOf_update hconnection hidentity
  constructor
  case generations =>
    exact hrouter.updated_generations hconnection hgeneration
  case next =>
    rw [update, List.length_set]
    exact hrouter.next
  case routed =>
    intro key route hroute
    rw [hkeys]
    exact hrouter.routed key route hroute
  case latest =>
    intro key route hroute other hother
    rw [hkeys] at hother
    exact hrouter.latest key route hroute other hother
  case authentic =>
    intro found hfound
    obtain ⟨henrolled, hproved⟩ :=
      hrouter.updated_authentic hconnection hidentity hchallenge found hfound
    exact ⟨henrolled, hproved⟩
  case addressed =>
    intro entry hentry
    exact updated_addressed hconnection hidentity (hrouter.addressed entry hentry)
  case known =>
    intro entry hentry
    rw [update, List.length_set]
    exact hrouter.known entry hentry
  case in_order =>
    intro other found hfound
    rw [connections_update hconnection] at hfound
    split at hfound
    case isTrue heq =>
      obtain rfl := Option.some.inj hfound
      rw [← heq]
      exact (hpending.append_left _).trans (hrouter.in_order index connection hconnection)
    case isFalse => exact hrouter.in_order other found hfound
  case peers_in_order =>
    intro key
    have hpeer := hrouter.peers_in_order key
    have hdelivered : (router.update index changed).deliveredToPeer key =
        router.deliveredToPeer key := by rw [deliveredToPeer, hkeys]; rfl
    have hsent : (router.update index changed).sentToPeer key = router.sentToPeer key := by
      rw [sentToPeer, hkeys]
      rfl
    rw [hdelivered, hsent, pendingOf_update hconnection]
    split
    case isTrue hsender =>
      rw [pendingOf_of_sender hconnection hsender] at hpeer
      exact (hpending.append_left _).trans hpeer
    case isFalse => exact hpeer

end Updated

theorem sent {index : ℕ} {frame : RelayFrame} {connection destination : RelayConnection Admission}
    {route : Route} (hconnection : router.connections[index]? = some connection)
    (hinstallation : frame.installationId = connection.identity.installationId)
    (hsource : frame.sourceId = connection.identity.peerId)
    (hroute : router.routes {
      installationId := frame.installationId
      authorityPublicKey := connection.identity.authorityPublicKey
      peerId := frame.destinationId } = some route)
    (hdestination : router.connections[route.sender]? = some destination) :
    Kept isEnrolled { router.update route.sender
        { destination with queue := destination.queue ++ [frame] } with
      sent := router.sent ++ [(index, route.sender, frame)] } := by
  have hkey := (hrouter.routed _ _ hroute).1
  have hpush : ({ destination with queue := destination.queue ++ [frame] } :
      RelayConnection Admission).pending = destination.pending ++ [frame] := by
    unfold RelayConnection.pending
    dsimp only
    split <;> rfl
  generalize hchanged : ({ destination with queue := destination.queue ++ [frame] } :
    RelayConnection Admission) = changed at *
  have hidentity : changed.identity = destination.identity := by rw [← hchanged]
  have hchallenge : changed.challenge = destination.challenge := by rw [← hchanged]
  have hgeneration : changed.generation = destination.generation := by rw [← hchanged]
  have hkeys := keyOf_update hdestination hidentity
  constructor
  case generations => exact hrouter.updated_generations hdestination hgeneration
  case next =>
    refine hrouter.next.trans ?_
    rw [update, List.length_set]
  case routed =>
    intro key found hfound
    obtain ⟨hsender, hvalue⟩ := hrouter.routed key found hfound
    refine ⟨?_, hvalue⟩
    rw [← hkeys] at hsender
    exact hsender
  case latest =>
    intro key found hfound other hother
    change (router.update route.sender changed).keyOf other = some key at hother
    rw [hkeys] at hother
    exact hrouter.latest key found hfound other hother
  case authentic =>
    intro found hfound
    obtain ⟨henrolled, hproved⟩ :=
      hrouter.updated_authentic hdestination hidentity hchallenge found hfound
    exact ⟨henrolled, hproved⟩
  case addressed =>
    intro entry hentry
    rw [List.mem_append, List.mem_singleton] at hentry
    apply updated_addressed hdestination hidentity
    obtain hold | rfl := hentry
    · exact hrouter.addressed entry hold
    · refine ⟨connection, destination, hconnection, hdestination, hinstallation, hsource, ?_⟩
      rw [keyOf, hdestination, Option.map_some] at hkey
      exact Option.some.inj hkey
  case known =>
    intro entry hentry
    change entry.1 < (router.connections.set route.sender changed).length
    rw [List.length_set]
    exact hrouter.known entry hentry
  case in_order =>
    intro other found hfound
    change (router.update route.sender changed).connections[other]? = some found at hfound
    rw [connections_update hdestination] at hfound
    have hsentTo : sentTo { router.update route.sender changed with
        sent := router.sent ++ [(index, route.sender, frame)] } other =
          router.sentTo other ++ if route.sender = other then [frame] else [] := by
      unfold sentTo
      rw [List.filter_append, List.map_append]
      apply congrArg
      by_cases heq : route.sender = other <;> simp [heq]
    rw [hsentTo]
    split at hfound
    case isTrue heq =>
      obtain rfl := Option.some.inj hfound
      rw [hpush, if_pos heq, ← List.append_assoc, ← heq]
      exact (hrouter.in_order route.sender destination hdestination).append_right [frame]
    case isFalse hne =>
      rw [if_neg hne, List.append_nil]
      exact hrouter.in_order other found hfound
  case peers_in_order =>
    intro key
    have hpeer := hrouter.peers_in_order key
    have hdelivered : deliveredToPeer { router.update route.sender changed with
        sent := router.sent ++ [(index, route.sender, frame)] } key =
          router.deliveredToPeer key := by
      unfold deliveredToPeer
      change (router.delivered.filter fun entry =>
        (router.update route.sender changed).keyOf entry.1 = some key).map Prod.snd = _
      rw [hkeys]
    have hsent : sentToPeer { router.update route.sender changed with
        sent := router.sent ++ [(index, route.sender, frame)] } key =
          router.sentToPeer key ++
            if router.keyOf route.sender = some key then [frame] else [] := by
      unfold sentToPeer
      change ((router.sent ++ [(index, route.sender, frame)]).filter fun entry =>
        (router.update route.sender changed).keyOf entry.2.1 = some key).map _ = _
      rw [hkeys, List.filter_append, List.map_append]
      apply congrArg
      by_cases heq : router.keyOf route.sender = some key <;> simp [heq]
    have hpending : pendingOf { router.update route.sender changed with
        sent := router.sent ++ [(index, route.sender, frame)] } key =
          router.pendingOf key ++
            if router.keyOf route.sender = some key then [frame] else [] := by
      refine (pendingOf_update hdestination key).trans ?_
      by_cases heq : router.keyOf route.sender = some key
      · have hsender : (router.routes key).any (fun found => found.sender = route.sender) =
            true := by
          rw [hkey] at heq
          rw [← Option.some.inj heq, hroute]
          simp
        rw [if_pos hsender, if_pos heq, hpush, pendingOf_of_sender hdestination hsender]
      · rw [if_neg heq, List.append_nil, if_neg]
        intro hsender
        obtain ⟨found, hfound, hsender⟩ := (Option.any_eq_true _ _).mp hsender
        apply heq
        rw [← of_decide_eq_true hsender]
        exact (hrouter.routed key found hfound).1
    rw [hdelivered, hsent, hpending, ← List.append_assoc]
    exact hpeer.append_right _

/-- Only the connection that has the route returns what it has got. -/
theorem delivered {index : ℕ} {frame : RelayFrame} {connection : RelayConnection Admission}
    {route : Route} (hconnection : router.connections[index]? = some connection)
    (hreceiving : connection.receiving = .took (some frame))
    (hroute : router.routes connection.key = some route) (hsender : route.sender = index) :
    Kept isEnrolled { router.update index { connection with receiving := .idle } with
      delivered := router.delivered ++ [(index, frame)] } := by
  have hpending : connection.pending = frame :: connection.queue := by
    rw [RelayConnection.pending, hreceiving]
  have hreleased : ({ connection with receiving := .idle } :
      RelayConnection Admission).pending = connection.queue := rfl
  generalize hchanged : ({ connection with receiving := .idle } :
    RelayConnection Admission) = changed at *
  have hidentity : changed.identity = connection.identity := by rw [← hchanged]
  have hchallenge : changed.challenge = connection.challenge := by rw [← hchanged]
  have hgeneration : changed.generation = connection.generation := by rw [← hchanged]
  have hkeys := keyOf_update hconnection hidentity
  have hkey : router.keyOf index = some connection.key := by
    rw [keyOf, hconnection]
    rfl
  constructor
  case generations => exact hrouter.updated_generations hconnection hgeneration
  case next =>
    refine hrouter.next.trans ?_
    rw [update, List.length_set]
  case routed =>
    intro key found hfound
    obtain ⟨hfoundSender, hvalue⟩ := hrouter.routed key found hfound
    refine ⟨?_, hvalue⟩
    rw [← hkeys] at hfoundSender
    exact hfoundSender
  case latest =>
    intro key found hfound other hother
    change (router.update index changed).keyOf other = some key at hother
    rw [hkeys] at hother
    exact hrouter.latest key found hfound other hother
  case authentic =>
    intro found hfound
    obtain ⟨henrolled, hproved⟩ :=
      hrouter.updated_authentic hconnection hidentity hchallenge found hfound
    exact ⟨henrolled, hproved⟩
  case addressed =>
    intro entry hentry
    exact updated_addressed hconnection hidentity (hrouter.addressed entry hentry)
  case known =>
    intro entry hentry
    change entry.1 < (router.connections.set index changed).length
    rw [List.length_set]
    rw [List.mem_append, List.mem_singleton] at hentry
    obtain hold | rfl := hentry
    · exact hrouter.known entry hold
    · exact (List.getElem?_eq_some_iff.mp hconnection).1
  case in_order =>
    intro other found hfound
    change (router.update index changed).connections[other]? = some found at hfound
    rw [connections_update hconnection] at hfound
    have hdeliveredTo : deliveredTo { router.update index changed with
        delivered := router.delivered ++ [(index, frame)] } other =
          router.deliveredTo other ++ if index = other then [frame] else [] := by
      unfold deliveredTo
      rw [List.filter_append, List.map_append]
      apply congrArg
      by_cases heq : index = other <;> simp [heq]
    rw [hdeliveredTo]
    split at hfound
    case isTrue heq =>
      obtain rfl := Option.some.inj hfound
      have horder := hrouter.in_order index connection hconnection
      rw [hpending] at horder
      rw [hreleased, if_pos heq, List.append_assoc, List.singleton_append, ← heq]
      exact horder
    case isFalse hne =>
      rw [if_neg hne, List.append_nil]
      exact hrouter.in_order other found hfound
  case peers_in_order =>
    intro key
    have hpeer := hrouter.peers_in_order key
    have hsent : sentToPeer { router.update index changed with
        delivered := router.delivered ++ [(index, frame)] } key = router.sentToPeer key := by
      unfold sentToPeer
      change (router.sent.filter fun entry =>
        (router.update index changed).keyOf entry.2.1 = some key).map _ = _
      rw [hkeys]
    have hdelivered : deliveredToPeer { router.update index changed with
        delivered := router.delivered ++ [(index, frame)] } key =
          router.deliveredToPeer key ++ if connection.key = key then [frame] else [] := by
      unfold deliveredToPeer
      change ((router.delivered ++ [(index, frame)]).filter fun entry =>
        (router.update index changed).keyOf entry.1 = some key).map Prod.snd = _
      rw [hkeys, List.filter_append, List.map_append]
      apply congrArg
      by_cases heq : connection.key = key <;> simp [hkey, heq]
    have hafter : (router.update index changed).pendingOf key = _ :=
      pendingOf_update hconnection key
    rw [hsent, hdelivered]
    by_cases heq : connection.key = key
    · have hany : (router.routes key).any (fun found => found.sender = index) = true := by
        rw [← heq, hroute]
        simp [hsender]
      rw [if_pos hany, hreleased] at hafter
      rw [pendingOf_of_sender hconnection hany, hpending] at hpeer
      rw [if_pos heq, List.append_assoc]
      refine List.Sublist.trans ?_ hpeer
      rw [← List.singleton_append]
      exact (List.Sublist.refl [frame]).append (by rw [← hafter]; exact List.Sublist.refl _)
        |>.append_left _
    · have hany : ¬(router.routes key).any (fun found => found.sender = index) = true := by
        intro hany
        obtain ⟨found, hfound, hfoundSender⟩ := (Option.any_eq_true _ _).mp hany
        have hother := (hrouter.routed key found hfound).1
        rw [of_decide_eq_true hfoundSender, hkey] at hother
        exact heq (Option.some.inj hother)
      rw [if_neg hany] at hafter
      rw [if_neg heq, List.append_nil]
      refine List.Sublist.trans ?_ hpeer
      exact List.Sublist.append_left (by rw [← hafter]; exact List.Sublist.refl _) _

/-- Removing a route loses what its channel holds. -/
theorem unrouted (key : RouteKey) :
    Kept isEnrolled { router with routes := Function.update router.routes key none } :=
  { hrouter with
    routed := by
      intro other route hroute
      dsimp only at hroute
      by_cases heq : other = key
      · rw [heq, Function.update_self] at hroute
        cases hroute
      · rw [Function.update_of_ne heq] at hroute
        exact hrouter.routed other route hroute
    latest := by
      intro other route hroute
      dsimp only at hroute
      by_cases heq : other = key
      · rw [heq, Function.update_self] at hroute
        cases hroute
      · rw [Function.update_of_ne heq] at hroute
        exact hrouter.latest other route hroute
    authentic := by
      intro connection hconnection
      obtain ⟨henrolled, hproved⟩ := hrouter.authentic connection hconnection
      exact ⟨henrolled, hproved⟩
    peers_in_order := by
      intro other
      refine List.Sublist.trans (List.Sublist.append_left ?_ _) (hrouter.peers_in_order other)
      unfold pendingOf
      dsimp only
      by_cases heq : other = key
      · rw [heq, Function.update_self]
        exact List.nil_sublist _
      · rw [Function.update_of_ne heq] }

end Kept

theorem kept_initial (isEnrolled : Time → RelayIdentity Admission → Bool) :
    Kept isEnrolled (initial : Router Admission) where
  generations := fun index connection hconnection => by cases hconnection
  next := rfl
  routed := fun key route hroute => by cases hroute
  latest := fun key route hroute => by cases hroute
  authentic := fun connection hconnection => absurd hconnection List.not_mem_nil
  addressed := fun entry hentry => absurd hentry List.not_mem_nil
  known := fun entry hentry => absurd hentry List.not_mem_nil
  in_order := fun index connection hconnection => by cases hconnection
  peers_in_order := fun key => List.Sublist.refl _

/-! ## Runs -/

section Runs

variable {isEnrolled : Time → RelayIdentity Admission → Bool}
  {verifySignature : String → List UInt8 → String → Bool} {queueCapacity : ℕ}

variable (isEnrolled verifySignature queueCapacity) in
/-- A proof that verifies was made by the holder of the key. -/
def Unforged (router : Router Admission) : List (Action Admission) → Prop
  | [] => True
  | action :: actions =>
      (∀ now index signature registration, action = .complete now index signature →
        router.registrations[index]? = some registration →
        verifySignature registration.identity.publicKey
          (registrationMessage registration.identity registration.challenge) signature = true →
        (registration.identity.publicKey,
          registrationMessage registration.identity registration.challenge) ∈ router.signed) ∧
      ∀ reached, router.step isEnrolled verifySignature queueCapacity action = some reached →
        Unforged reached actions

variable {router reached : Router Admission} {action : Action Admission}

theorem Moved.connections_length (hmoved : Moved isEnrolled verifySignature router action reached) :
    router.connections.length ≤ reached.connections.length := by
  cases hmoved with
  | administered => exact Nat.le_refl _
  | registered =>
      rw [List.length_append]
      exact Nat.le_add_right _ _
  | sent => exact Nat.le_of_eq List.length_set.symm
  | progressed => exact Nat.le_of_eq List.length_set.symm
  | delivered => exact Nat.le_of_eq List.length_set.symm
  | dropped => exact Nat.le_of_eq List.length_set.symm

theorem Kept.moved (hrouter : Kept isEnrolled router)
    (hbound : router.connections.length < 2 ^ 64)
    (hunforged : ∀ now index signature registration, action = .complete now index signature →
      router.registrations[index]? = some registration →
      verifySignature registration.identity.publicKey
        (registrationMessage registration.identity registration.challenge) signature = true →
      (registration.identity.publicKey,
        registrationMessage registration.identity registration.challenge) ∈ router.signed)
    (hmoved : Moved isEnrolled verifySignature router action reached) :
    Kept isEnrolled reached := by
  cases hmoved with
  | administered owners registrations hsigned => exact hrouter.administered hsigned
  | registered registrations hregistration henrolled hsignature =>
      exact hrouter.registered registrations ⟨_, henrolled⟩
        (hunforged _ _ _ _ rfl hregistration hsignature)
  | sent hconnection hinstallation hsource hcurrent hroute hdestination =>
      exact hrouter.sent hconnection hinstallation hsource hroute hdestination
  | progressed hconnection hidentity hchallenge hgeneration hpending =>
      exact hrouter.progressed hconnection hidentity hchallenge hgeneration hpending
  | delivered hconnection hreceiving hcurrent =>
      obtain ⟨route, hroute, hsender⟩ :=
        hrouter.sender_of_isCurrent hbound hconnection hcurrent
      exact hrouter.delivered hconnection hreceiving hroute hsender
  | @dropped index connection hconnection hcurrent =>
      have hdropped : Kept isEnrolled
          (router.update index { connection with dropped := true }) :=
        hrouter.progressed hconnection rfl rfl rfl (List.Sublist.refl _)
      exact hdropped.unrouted _

/-- A connection without a route gets none, sends nothing and is given nothing. -/
theorem Kept.silent_moved (hrouter : Kept isEnrolled router)
    (hbound : router.connections.length < 2 ^ 64)
    (hmoved : Moved isEnrolled verifySignature router action reached) {index : ℕ}
    (hindex : index < router.connections.length) (hsilent : ¬router.HasRoute index) :
    ¬reached.HasRoute index ∧ reached.sentBy index = router.sentBy index ∧
      reached.deliveredTo index = router.deliveredTo index := by
  have hcurrent : ∀ {number : ℕ} {connection : RelayConnection Admission},
      router.connections[number]? = some connection → router.isCurrent connection = true →
      router.HasRoute number := by
    intro number connection hconnection hcurrent
    obtain ⟨route, hroute, hsender⟩ := hrouter.sender_of_isCurrent hbound hconnection hcurrent
    exact ⟨connection.key, route, by rw [keyOf, hconnection]; rfl, hroute, hsender⟩
  have hsame : ∀ {number : ℕ} {connection changed : RelayConnection Admission},
      router.connections[number]? = some connection → changed.identity = connection.identity →
      ¬(router.update number changed).HasRoute index := by
    rintro number connection changed hconnection hidentity ⟨key, route, hkey, hroute, hsender⟩
    rw [keyOf_update hconnection hidentity] at hkey
    exact hsilent ⟨key, route, hkey, hroute, hsender⟩
  cases hmoved with
  | administered => exact ⟨hsilent, rfl, rfl⟩
  | @registered now number signature registration registrations =>
      refine ⟨?_, rfl, rfl⟩
      rintro ⟨key, route, hkey, hroute, hsender⟩
      have hold : router.keyOf index = some key := by
        rw [← hkey]
        exact (Kept.keyOf_append hindex).symm
      dsimp only at hroute
      by_cases heq : key = registration.identity.routeKey
      · rw [heq, Function.update_self] at hroute
        obtain rfl := Option.some.inj hroute
        exact Nat.ne_of_lt hindex hsender.symm
      · rw [Function.update_of_ne heq] at hroute
        exact hsilent ⟨key, route, hold, hroute, hsender⟩
  | @sent number frame connection destination route hconnection _ _ hcurrent' _ hdestination =>
      have hne : number ≠ index := by
        rintro rfl
        exact hsilent (hcurrent hconnection hcurrent')
      refine ⟨hsame hdestination rfl, ?_, rfl⟩
      unfold sentBy
      rw [List.filter_append, List.map_append]
      simp [hne]
  | progressed hconnection hidentity => exact ⟨hsame hconnection hidentity, rfl, rfl⟩
  | @delivered number frame connection hconnection _ hcurrent' =>
      have hne : number ≠ index := by
        rintro rfl
        exact hsilent (hcurrent hconnection hcurrent')
      refine ⟨hsame hconnection rfl, rfl, ?_⟩
      unfold deliveredTo
      rw [List.filter_append, List.map_append]
      simp [hne]
  | @dropped number connection hconnection =>
      refine ⟨?_, rfl, rfl⟩
      rintro ⟨key, route, hkey, hroute, hsender⟩
      dsimp only at hroute
      by_cases heq : key = connection.key
      · rw [heq, Function.update_self] at hroute
        cases hroute
      · rw [Function.update_of_ne heq] at hroute
        exact @hsame number connection { connection with dropped := true } hconnection rfl
          ⟨key, route, hkey, hroute, hsender⟩

theorem connections_runs {actions : List (Action Admission)}
    (hruns : router.runs isEnrolled verifySignature queueCapacity actions = some reached) :
    router.connections.length ≤ reached.connections.length := by
  induction actions generalizing router with
  | nil =>
      obtain rfl := Option.some.inj hruns
      exact Nat.le_refl _
  | cons action actions ih =>
      obtain ⟨next, hstep, hrest⟩ := Option.bind_eq_some_iff.mp hruns
      exact Nat.le_trans (moved_of_step hstep).connections_length (ih hrest)

theorem Kept.runs {actions : List (Action Admission)} (hrouter : Kept isEnrolled router)
    (hruns : router.runs isEnrolled verifySignature queueCapacity actions = some reached)
    (hbound : reached.connections.length < 2 ^ 64)
    (hunforged : router.Unforged isEnrolled verifySignature queueCapacity actions) :
    Kept isEnrolled reached := by
  induction actions generalizing router with
  | nil =>
      obtain rfl := Option.some.inj hruns
      exact hrouter
  | cons action actions ih =>
      obtain ⟨next, hstep, hrest⟩ := Option.bind_eq_some_iff.mp hruns
      have hmoved := moved_of_step hstep
      have hnext : next.connections.length < 2 ^ 64 :=
        Nat.lt_of_le_of_lt (connections_runs hrest) hbound
      have hrouterBound := Nat.lt_of_le_of_lt hmoved.connections_length hnext
      exact ih (hrouter.moved hrouterBound hunforged.1 hmoved) hrest (hunforged.2 next hstep)

theorem Kept.silent_runs {actions : List (Action Admission)} (hrouter : Kept isEnrolled router)
    (hruns : router.runs isEnrolled verifySignature queueCapacity actions = some reached)
    (hbound : reached.connections.length < 2 ^ 64)
    (hunforged : router.Unforged isEnrolled verifySignature queueCapacity actions) {index : ℕ}
    (hindex : index < router.connections.length) (hsilent : ¬router.HasRoute index) :
    ¬reached.HasRoute index ∧ reached.sentBy index = router.sentBy index ∧
      reached.deliveredTo index = router.deliveredTo index := by
  induction actions generalizing router with
  | nil =>
      obtain rfl := Option.some.inj hruns
      exact ⟨hsilent, rfl, rfl⟩
  | cons action actions ih =>
      obtain ⟨next, hstep, hrest⟩ := Option.bind_eq_some_iff.mp hruns
      have hmoved := moved_of_step hstep
      have hnext : next.connections.length < 2 ^ 64 :=
        Nat.lt_of_le_of_lt (connections_runs hrest) hbound
      have hrouterBound := Nat.lt_of_le_of_lt hmoved.connections_length hnext
      obtain ⟨hstill, hsent, hdelivered⟩ :=
        hrouter.silent_moved hrouterBound hmoved hindex hsilent
      obtain ⟨hlast, hsentLast, hdeliveredLast⟩ :=
        ih (hrouter.moved hrouterBound hunforged.1 hmoved) hrest (hunforged.2 next hstep)
          (Nat.lt_of_lt_of_le hindex hmoved.connections_length) hstill
      exact ⟨hlast, hsentLast.trans hsent, hdeliveredLast.trans hdelivered⟩

theorem unforged_append {first rest : List (Action Admission)}
    (hruns : router.runs isEnrolled verifySignature queueCapacity first = some reached)
    (hunforged : router.Unforged isEnrolled verifySignature queueCapacity (first ++ rest)) :
    router.Unforged isEnrolled verifySignature queueCapacity first ∧
      reached.Unforged isEnrolled verifySignature queueCapacity rest := by
  induction first generalizing router with
  | nil =>
      obtain rfl := Option.some.inj hruns
      exact ⟨True.intro, hunforged⟩
  | cons action first ih =>
      obtain ⟨next, hstep, hrest⟩ := Option.bind_eq_some_iff.mp hruns
      obtain ⟨hhead, htail⟩ := ih hrest (hunforged.2 next hstep)
      refine ⟨⟨hunforged.1, ?_⟩, htail⟩
      intro other hother
      rw [hstep] at hother
      obtain rfl := Option.some.inj hother
      exact hhead

variable (isEnrolled verifySignature queueCapacity) in
/-- `Unforged` for a run that is given. -/
def proved (router : Router Admission) : List (Action Admission) → Bool
  | [] => true
  | action :: actions =>
      (match action with
        | .complete _ index signature =>
            router.registrations[index]?.all fun registration =>
              let message := registrationMessage registration.identity registration.challenge
              !verifySignature registration.identity.publicKey message signature ||
                router.signed.contains (registration.identity.publicKey, message)
        | _ => true) &&
      (router.step isEnrolled verifySignature queueCapacity action).all fun reached =>
        reached.proved actions

theorem unforged_of_proved {actions : List (Action Admission)}
    (hproved : router.proved isEnrolled verifySignature queueCapacity actions = true) :
    router.Unforged isEnrolled verifySignature queueCapacity actions := by
  induction actions generalizing router with
  | nil => exact True.intro
  | cons action actions ih =>
      obtain ⟨hhead, htail⟩ := Bool.and_eq_true_iff.mp hproved
      constructor
      · rintro now index signature registration rfl hregistration hsignature
        dsimp only at hhead
        rw [hregistration, Option.all_some, hsignature] at hhead
        exact List.contains_iff_mem.mp hhead
      · intro reached hstep
        rw [hstep, Option.all_some] at htail
        exact ih htail

/-- A connection that another one has replaced has no route. -/
theorem Kept.not_hasRoute (hrouter : Kept isEnrolled router) {index later : ℕ}
    (hlater : index < later)
    (hkey : router.keyOf index = router.keyOf later) : ¬router.HasRoute index := by
  rintro ⟨key, route, hindex, hroute, rfl⟩
  have hle := hrouter.latest key route hroute later (hkey ▸ hindex)
  exact absurd hle (Nat.not_le.mpr hlater)

/-- Without a route a connection is not current. -/
theorem Kept.isCurrent_eq_false (hrouter : Kept isEnrolled router)
    (hbound : router.connections.length < 2 ^ 64) {index : ℕ}
    {connection : RelayConnection Admission}
    (hconnection : router.connections[index]? = some connection)
    (hsilent : ¬router.HasRoute index) : router.isCurrent connection = false := by
  cases hcurrent : router.isCurrent connection with
  | false => rfl
  | true =>
      obtain ⟨route, hroute, hsender⟩ := hrouter.sender_of_isCurrent hbound hconnection hcurrent
      exact absurd ⟨connection.key, route, by rw [keyOf, hconnection]; rfl, hroute, hsender⟩ hsilent

theorem send_of_not_current {index : ℕ} {connection : RelayConnection Admission}
    {frame : RelayFrame} (hcurrent : router.isCurrent connection = false) :
    ∃ error, router.send queueCapacity index connection frame = .error error := by
  unfold Router.send
  split
  case h_1 error _ => exact ⟨error, rfl⟩
  case h_2 =>
    split
    case isTrue => exact ⟨_, rfl⟩
    case isFalse =>
      split
      case isTrue => exact ⟨_, rfl⟩
      case isFalse =>
        exact ⟨_, rfl⟩

/-- What a peer gets comes from the peer it names, in order, and no more than once. -/
structure Isolated (isEnrolled : Time → RelayIdentity Admission → Bool)
    (router : Router Admission) : Prop where
  authentic : ∀ index frame, (index, frame) ∈ router.delivered →
    ∃ source connection receiver, router.connections[source]? = some connection ∧
      router.connections[index]? = some receiver ∧ (source, index, frame) ∈ router.sent ∧
      Authenticated isEnrolled router connection ∧ Addressed connection receiver frame
  in_order : ∀ index, (router.deliveredTo index).Sublist (router.sentTo index)
  peers_in_order : ∀ key source,
    ((router.deliveredToPeer key).filter fun frame => frame.sourceId = source).Sublist
      ((router.sentToPeer key).filter fun frame => frame.sourceId = source)

theorem Kept.isolated (hrouter : Kept isEnrolled router) : Isolated isEnrolled router where
  authentic := by
    intro index frame hdelivered
    have hknown := hrouter.known _ hdelivered
    have horder := hrouter.in_order index _ (List.getElem?_eq_getElem hknown)
    have hmem : frame ∈ router.deliveredTo index :=
      List.mem_map.mpr ⟨(index, frame), List.mem_filter.mpr ⟨hdelivered, by simp⟩, rfl⟩
    have hsent := horder.subset (List.mem_append_left _ hmem)
    obtain ⟨⟨source, destination, sentFrame⟩, hentry, rfl⟩ := List.mem_map.mp hsent
    obtain ⟨hmember, hdestination⟩ := List.mem_filter.mp hentry
    have heq : destination = index := of_decide_eq_true hdestination
    subst heq
    obtain ⟨connection, receiver, hconnection, hreceiver, haddressed⟩ :=
      hrouter.addressed _ hmember
    exact ⟨source, connection, receiver, hconnection, hreceiver, hmember,
      hrouter.authentic connection (List.mem_of_getElem? hconnection), haddressed⟩
  in_order := by
    intro index
    by_cases hindex : index < router.connections.length
    · exact (List.sublist_append_left _ _).trans
        (hrouter.in_order index _ (List.getElem?_eq_getElem hindex))
    · have hnone : router.deliveredTo index = [] := by
        rw [deliveredTo, List.map_eq_nil_iff, List.filter_eq_nil_iff]
        intro entry hentry heq
        exact hindex (of_decide_eq_true heq ▸ hrouter.known entry hentry)
      rw [hnone]
      exact List.nil_sublist _
  peers_in_order := by
    intro key source
    exact ((List.sublist_append_left _ _).trans (hrouter.peers_in_order key)).filter _

/-- The connections of a router are isolated from each other in every run: what is received
is what an authenticated peer has sent, a connection that has been replaced is silent from
then on, and a connection that is dropped takes nothing but its own route with it. -/
theorem routing_isolated (before after : List (Action Admission)) (middle last : Router Admission)
    (hbefore : initial.runs isEnrolled verifySignature queueCapacity before = some middle)
    (hafter : middle.runs isEnrolled verifySignature queueCapacity after = some last)
    (hbound : last.connections.length < 2 ^ 64)
    (hunforged : initial.Unforged isEnrolled verifySignature queueCapacity (before ++ after)) :
    Isolated isEnrolled last ∧
    (∀ index later, index < later → later < middle.connections.length →
      middle.keyOf index = middle.keyOf later →
        last.sentBy index = middle.sentBy index ∧
        last.deliveredTo index = middle.deliveredTo index ∧
        ∀ connection, last.connections[index]? = some connection →
          last.isCurrent connection = false ∧
          ∀ frame, ∃ error, last.send queueCapacity index connection frame = .error error) ∧
    (∀ index reached,
      last.step isEnrolled verifySignature queueCapacity (.drop index) = some reached →
        (∀ key route, last.routes key = some route → route.sender ≠ index →
          reached.routes key = some route) ∧
        ∀ other, other ≠ index → reached.connections[other]? = last.connections[other]?) := by
  obtain ⟨hfirst, hrest⟩ := unforged_append hbefore hunforged
  have hmiddleBound : middle.connections.length < 2 ^ 64 :=
    Nat.lt_of_le_of_lt (connections_runs hafter) hbound
  have hmiddle : Kept isEnrolled middle :=
    (kept_initial isEnrolled).runs hbefore hmiddleBound hfirst
  have hlast : Kept isEnrolled last := hmiddle.runs hafter hbound hrest
  refine ⟨hlast.isolated, ?_, ?_⟩
  · intro index later hlater hknown hkey
    have hsilent := hmiddle.not_hasRoute hlater hkey
    obtain ⟨hstill, hsent, hdelivered⟩ :=
      hmiddle.silent_runs hafter hbound hrest (Nat.lt_trans hlater hknown) hsilent
    refine ⟨hsent, hdelivered, ?_⟩
    intro connection hconnection
    have hcurrent := hlast.isCurrent_eq_false hbound hconnection hstill
    exact ⟨hcurrent, fun frame => send_of_not_current hcurrent⟩
  · intro index reached hstep
    obtain ⟨connection, hfound, rfl⟩ := Option.map_eq_some_iff.mp hstep
    obtain ⟨hconnection, -⟩ := Option.filter_eq_some_iff.mp hfound
    constructor
    · intro key route hroute hsender
      dsimp only
      split
      case isFalse => exact hroute
      case isTrue hcurrent =>
        rw [Bool.and_eq_true] at hcurrent
        obtain ⟨own, hown, howner⟩ :=
          hlast.sender_of_isCurrent hbound hconnection hcurrent.2
        rw [Function.update_of_ne]
        · exact hroute
        · rintro rfl
          rw [hown] at hroute
          exact hsender (Option.some.inj hroute ▸ howner)
    · intro other hother
      exact (connections_update hconnection).trans (if_neg (Ne.symm hother))

end Runs

end Router

namespace Reconnected

/-! ### A peer that connects again while a frame for it is under way -/

def installation : InstallationId := ⟨"00000000-0000-4000-8000-000000000001"⟩

def identity (peer : String) : RelayIdentity Unit where
  installationId := installation
  peerId := ⟨peer⟩
  publicKey := peer ++ "-key"
  authorityPublicKey := "authority"
  admission := some ()

/-- A scheme whose signatures name the key. -/
def verifySignature (publicKey : String) (_ : List UInt8) (signature : String) : Bool :=
  signature = "signed by " ++ publicKey

def isEnrolled (_ : Time) (_ : RelayIdentity Unit) : Bool := true

def frame (sequence : ℕ) : RelayFrame where
  installationId := installation
  sourceId := ⟨"host:alice"⟩
  destinationId := ⟨"host:bob"⟩
  subjectId := "stream"
  sequence
  ciphertext := []

/-- A peer asks for a challenge, signs it and is admitted. -/
def connect (peer : String) (challenge : UInt8) : List (Action Unit) :=
  [.challenge 0 (identity peer) [challenge],
    .sign (identity peer).publicKey (registrationMessage (identity peer) [challenge]),
    .complete 0 0 ("signed by " ++ (identity peer).publicKey)]

def before : List (Action Unit) :=
  connect "host:alice" 0 ++ connect "host:bob" 1 ++ [.send 0 (frame 0), .receive 1, .take 1] ++
    connect "host:bob" 2

def after : List (Action Unit) :=
  [.deliver 1, .send 0 (frame 1), .receive 2, .take 2, .deliver 2, .send 1 (frame 2)]

def middle : Router Unit :=
  (Router.initial.runs isEnrolled verifySignature 4 before).getD .initial

def last : Router Unit := (middle.runs isEnrolled verifySignature 4 after).getD .initial

theorem runs_before :
    Router.initial.runs isEnrolled verifySignature 4 before = some middle := by
  have hsome : (Router.initial.runs isEnrolled verifySignature 4 before).isSome = true := by
    decide
  obtain ⟨reached, hreached⟩ := Option.isSome_iff_exists.mp hsome
  rw [middle, hreached]
  rfl

theorem runs_after : middle.runs isEnrolled verifySignature 4 after = some last := by
  have hsome : (middle.runs isEnrolled verifySignature 4 after).isSome = true := by
    decide
  obtain ⟨reached, hreached⟩ := Option.isSome_iff_exists.mp hsome
  rw [last, hreached]
  rfl

theorem unforged :
    Router.initial.Unforged isEnrolled verifySignature 4 (before ++ after) :=
  Router.unforged_of_proved (by decide)

theorem few_connections : last.connections.length < 2 ^ 64 := by decide

/-- The frame that the old connection had got is not delivered, and the old connection
does not send any more. -/
theorem replaced_silent :
    Router.Isolated isEnrolled last ∧ last.deliveredTo 1 = middle.deliveredTo 1 ∧
      last.sentBy 1 = middle.sentBy 1 := by
  obtain ⟨hisolated, hreplaced, -⟩ := Router.routing_isolated before after middle last
    runs_before runs_after few_connections unforged
  obtain ⟨hsent, hdelivered, -⟩ := hreplaced 1 2 (by decide) (by decide)
    (by decide)
  exact ⟨hisolated, hdelivered, hsent⟩

end Reconnected

end Mews.Relay
