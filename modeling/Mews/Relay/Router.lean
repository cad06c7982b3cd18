import Mews.Core.Texts
import Mews.Transport.Stream
import Mathlib.Data.List.Basic
import Mathlib.Logic.Function.Basic

/-!
# The router of the relay

A peer proves that it holds the key of an enrolled identity and gets a
connection.  The router has one route for every installation, authority and
peer; a later connection replaces the route, and a connection may outlive its
route.  Every call that looks at the routes holds their lock, so that the calls
of different connections come one after the other.
-/

namespace Mews.Relay

open Protocol Transport

abbrev Time := ℕ

/-- The router hands the admission to its authenticator and does not read it. -/
structure RelayIdentity (Admission : Type) where
  installationId : InstallationId
  peerId : RelayPeerId
  publicKey : String
  authorityPublicKey : String
  admission : Option Admission
  deriving DecidableEq, Repr

structure RouteKey where
  installationId : InstallationId
  authorityPublicKey : String
  peerId : RelayPeerId
  deriving DecidableEq, Repr

inductive RelayError where
  | unauthorized
  | invalidSignature
  | invalidStreamId
  | frameTooLarge (actual maximum : ℕ)
  | sourceMismatch
  | connectionReplaced
  | destinationOffline
  | destinationBusy
  deriving DecidableEq, Repr

/-- `RelayFrame::validate`. -/
def validate (frame : RelayFrame) : Except RelayError Unit :=
  if isSubjectId frame.subjectId = false then .error .invalidStreamId
  else if frame.ciphertext.length > maxCiphertextBytes then
    .error (.frameTooLarge frame.ciphertext.length maxCiphertextBytes)
  else .ok ()

variable {Admission : Type}

def RelayIdentity.routeKey (identity : RelayIdentity Admission) : RouteKey where
  installationId := identity.installationId
  authorityPublicKey := identity.authorityPublicKey
  peerId := identity.peerId

def registrationMessage (identity : RelayIdentity Admission) (challenge : List UInt8) :
    List UInt8 :=
  bytesOf "mews-relay-registration-v1" ++ [0] ++
    bytesOf identity.installationId.asStr ++ [0] ++
    bytesOf identity.peerId.value ++ [0] ++
    bytesOf identity.authorityPublicKey ++ [0] ++ challenge

/-- The sender of a route is the end of the channel of the connection with that number. -/
structure Route where
  generation : ℕ
  sender : ℕ
  deriving DecidableEq, Repr

structure RelayRegistration (Admission : Type) where
  identity : RelayIdentity Admission
  challenge : List UInt8

/-- How far a call of `receive` has come. -/
inductive Receiving where
  | idle
  | waiting
  /-- What the channel gave, before the route is looked at again. -/
  | took (frame : Option RelayFrame)
  deriving DecidableEq, Repr

/-- `queue` is what the channel of the connection holds. -/
structure RelayConnection (Admission : Type) where
  identity : RelayIdentity Admission
  challenge : List UInt8
  generation : ℕ
  queue : List RelayFrame
  receiving : Receiving
  dropped : Bool

def RelayConnection.key (connection : RelayConnection Admission) : RouteKey :=
  connection.identity.routeKey

/-- What a connection has got and not returned yet. -/
def RelayConnection.pending (connection : RelayConnection Admission) : List RelayFrame :=
  match connection.receiving with
  | .took (some frame) => frame :: connection.queue
  | _ => connection.queue

theorem RelayConnection.queue_sublist_pending (connection : RelayConnection Admission) :
    connection.queue.Sublist connection.pending := by
  unfold pending
  split
  · exact List.sublist_cons_self _ _
  · exact List.Sublist.refl _

/-- A router and all that was made with it.  `owners` says whether a clone of the router or a
registration is left.  `signed`, `sent` and `delivered` are the history: the messages
that the holders of the keys have signed, the frames that a connection has put into the
channel of another one, and the frames that `receive` has returned. -/
structure Router (Admission : Type) where
  owners : Bool
  nextGeneration : ℕ
  routes : RouteKey → Option Route
  registrations : List (RelayRegistration Admission)
  connections : List (RelayConnection Admission)
  signed : List (String × List UInt8)
  sent : List (ℕ × ℕ × RelayFrame)
  delivered : List (ℕ × RelayFrame)

inductive Action (Admission : Type) where
  /-- The holder of a key signs a message. -/
  | sign (publicKey : String) (message : List UInt8)
  | challenge (now : Time) (identity : RelayIdentity Admission) (challenge : List UInt8)
  | complete (now : Time) (registration : ℕ) (signature : String)
  | send (connection : ℕ) (frame : RelayFrame)
  /-- `receive` is called, gets something from its channel, looks at the route again. -/
  | receive (connection : ℕ)
  | take (connection : ℕ)
  | deliver (connection : ℕ)
  /-- The call of `receive` is dropped while it waits. -/
  | cancel (connection : ℕ)
  | drop (connection : ℕ)
  /-- The last clone of the router is dropped. -/
  | disown

namespace Router

def initial : Router Admission where
  owners := true
  nextGeneration := 0
  routes := fun _ => none
  registrations := []
  connections := []
  signed := []
  sent := []
  delivered := []

section Calls

variable (router : Router Admission)

/-- Whether a weak reference to the router can be upgraded. -/
def alive : Bool :=
  router.owners || router.connections.any fun connection => connection.receiving != .idle

def isCurrent (connection : RelayConnection Admission) : Bool :=
  (router.routes connection.key).any fun route => route.generation = connection.generation

def update (index : ℕ) (connection : RelayConnection Admission) : Router Admission :=
  { router with connections := router.connections.set index connection }

variable (isEnrolled : Time → RelayIdentity Admission → Bool)
  (verifySignature : String → List UInt8 → String → Bool) (queueCapacity : ℕ)

def challenge (now : Time) (identity : RelayIdentity Admission) (challenge : List UInt8) :
    Except RelayError (Router Admission) :=
  if isEnrolled now identity = false then .error .unauthorized
  else .ok { router with registrations := router.registrations ++ [{ identity, challenge }] }

def register (now : Time) (identity : RelayIdentity Admission) (challenge : List UInt8)
    (signature : String) : Except RelayError (Router Admission) :=
  if isEnrolled now identity = false then .error .unauthorized
  else if verifySignature identity.publicKey (registrationMessage identity challenge)
      signature = false then .error .invalidSignature
  else
    let generation := (router.nextGeneration + 1) % 2 ^ 64
    .ok { router with
      nextGeneration := generation
      routes := Function.update router.routes identity.routeKey
        (some { generation, sender := router.connections.length })
      connections := router.connections ++ [{
        identity, challenge, generation
        queue := []
        receiving := .idle
        dropped := false }] }

def send (index : ℕ) (connection : RelayConnection Admission) (frame : RelayFrame) :
    Except RelayError (Router Admission) :=
  match validate frame with
  | .error error => .error error
  | .ok () =>
      if frame.installationId ≠ connection.identity.installationId ∨
          frame.sourceId ≠ connection.identity.peerId then .error .sourceMismatch
      else if router.alive = false then .error .destinationOffline
      else
        let key : RouteKey := {
          installationId := frame.installationId
          authorityPublicKey := connection.identity.authorityPublicKey
          peerId := frame.destinationId }
        if router.isCurrent connection = false then .error .connectionReplaced
        else
          match router.routes key with
          | none => .error .destinationOffline
          | some route =>
              match router.connections[route.sender]? with
              | none => .error .destinationOffline
              | some destination =>
                  -- the channel of a dropped connection is closed
                  if destination.dropped then .error .destinationOffline
                  else if queueCapacity ≤ destination.queue.length then .error .destinationBusy
                  else .ok { router.update route.sender
                      { destination with queue := destination.queue ++ [frame] } with
                    sent := router.sent ++ [(index, route.sender, frame)] }

end Calls

/-- A call that fails leaves the router as it was. -/
def orSame (router : Router Admission) (called : Except RelayError (Router Admission)) :
    Router Admission :=
  match called with
  | .ok reached => reached
  | .error _ => router

variable (isEnrolled : Time → RelayIdentity Admission → Bool)
  (verifySignature : String → List UInt8 → String → Bool) (queueCapacity : ℕ)

def step (router : Router Admission) : Action Admission → Option (Router Admission)
  | .sign publicKey message =>
      some { router with signed := router.signed ++ [(publicKey, message)] }
  | .challenge now identity challenge =>
      if router.owners then
        some (router.orSame (router.challenge isEnrolled now identity challenge))
      else none
  | .complete now index signature =>
      router.registrations[index]?.map fun registration =>
        let left := { router with registrations := router.registrations.eraseIdx index }
        left.orSame (left.register isEnrolled verifySignature now registration.identity
          registration.challenge signature)
  | .send index frame =>
      (router.connections[index]?.filter fun connection => !connection.dropped).map
        fun connection => router.orSame (router.send queueCapacity index connection frame)
  | .receive index =>
      (router.connections[index]?.filter fun connection =>
          !connection.dropped && connection.receiving == .idle).map fun connection =>
        -- otherwise the call returns nothing at once
        if router.alive && router.isCurrent connection then
          router.update index { connection with receiving := .waiting }
        else router
  | .take index =>
      (router.connections[index]?.filter fun connection => connection.receiving == .waiting).bind
        fun connection =>
          match connection.queue with
          | frame :: queue =>
              some (router.update index
                { connection with receiving := .took (some frame), queue := queue })
          | [] =>
              -- the channel is closed once no route has its sender
              if (router.routes connection.key).any fun route => route.sender = index then none
              else some (router.update index { connection with receiving := .took none })
  | .deliver index =>
      router.connections[index]?.bind fun connection =>
        match connection.receiving with
        | .took frame =>
            let left := router.update index { connection with receiving := .idle }
            some (match if router.isCurrent connection then frame else none with
              | some frame => { left with delivered := left.delivered ++ [(index, frame)] }
              | none => left)
        | _ => none
  | .cancel index =>
      (router.connections[index]?.filter fun connection => connection.receiving == .waiting).map
        fun connection => router.update index { connection with receiving := .idle }
  | .drop index =>
      (router.connections[index]?.filter fun connection =>
          !connection.dropped && connection.receiving == .idle).map fun connection =>
        { router.update index { connection with dropped := true } with
          routes :=
            if router.alive && router.isCurrent connection then
              Function.update router.routes connection.key none
            else router.routes }
  | .disown => some { router with owners := false, registrations := [] }

def runs (router : Router Admission) : List (Action Admission) → Option (Router Admission)
  | [] => some router
  | action :: actions =>
      (router.step isEnrolled verifySignature queueCapacity action).bind fun reached =>
        reached.runs actions

/-! ## What a step does -/

variable {isEnrolled verifySignature queueCapacity}

/-- The effects of a step on the routes, the connections and the history. -/
inductive Moved (isEnrolled : Time → RelayIdentity Admission → Bool)
    (verifySignature : String → List UInt8 → String → Bool) (router : Router Admission) :
    Action Admission → Router Admission → Prop
  /-- Nothing but who holds the router, what is pending and what has been signed. -/
  | administered {action : Action Admission} (owners : Bool)
      (registrations : List (RelayRegistration Admission))
      {signed : List (String × List UInt8)} (hsigned : router.signed <+: signed) :
      Moved isEnrolled verifySignature router action { router with owners, registrations, signed }
  | registered {now : Time} {index : ℕ} {signature : String}
      {registration : RelayRegistration Admission}
      (registrations : List (RelayRegistration Admission))
      (hregistration : router.registrations[index]? = some registration)
      (henrolled : isEnrolled now registration.identity = true)
      (hsignature : verifySignature registration.identity.publicKey
        (registrationMessage registration.identity registration.challenge) signature = true) :
      Moved isEnrolled verifySignature router (.complete now index signature) { router with
        registrations
        nextGeneration := (router.nextGeneration + 1) % 2 ^ 64
        routes := Function.update router.routes registration.identity.routeKey
          (some { generation := (router.nextGeneration + 1) % 2 ^ 64
                  sender := router.connections.length })
        connections := router.connections ++ [{
          identity := registration.identity
          challenge := registration.challenge
          generation := (router.nextGeneration + 1) % 2 ^ 64
          queue := []
          receiving := .idle
          dropped := false }] }
  | sent {index : ℕ} {frame : RelayFrame} {connection destination : RelayConnection Admission}
      {route : Route} (hconnection : router.connections[index]? = some connection)
      (hinstallation : frame.installationId = connection.identity.installationId)
      (hsource : frame.sourceId = connection.identity.peerId)
      (hcurrent : router.isCurrent connection = true)
      (hroute : router.routes {
        installationId := frame.installationId
        authorityPublicKey := connection.identity.authorityPublicKey
        peerId := frame.destinationId } = some route)
      (hdestination : router.connections[route.sender]? = some destination) :
      Moved isEnrolled verifySignature router (.send index frame)
        { router.update route.sender
            { destination with queue := destination.queue ++ [frame] } with
          sent := router.sent ++ [(index, route.sender, frame)] }
  /-- A connection moves on by itself, and may lose what it has got. -/
  | progressed {action : Action Admission} {index : ℕ}
      {connection changed : RelayConnection Admission}
      (hconnection : router.connections[index]? = some connection)
      (hidentity : changed.identity = connection.identity)
      (hchallenge : changed.challenge = connection.challenge)
      (hgeneration : changed.generation = connection.generation)
      (hpending : changed.pending.Sublist connection.pending) :
      Moved isEnrolled verifySignature router action (router.update index changed)
  | delivered {index : ℕ} {frame : RelayFrame} {connection : RelayConnection Admission}
      (hconnection : router.connections[index]? = some connection)
      (hreceiving : connection.receiving = .took (some frame))
      (hcurrent : router.isCurrent connection = true) :
      Moved isEnrolled verifySignature router (.deliver index)
        { router.update index { connection with receiving := .idle } with
          delivered := router.delivered ++ [(index, frame)] }
  | dropped {index : ℕ} {connection : RelayConnection Admission}
      (hconnection : router.connections[index]? = some connection)
      (hcurrent : router.isCurrent connection = true) :
      Moved isEnrolled verifySignature router (.drop index)
        { router.update index { connection with dropped := true } with
          routes := Function.update router.routes connection.key none }

theorem orSame_cases (router : Router Admission)
    (called : Except RelayError (Router Admission)) :
    router.orSame called = router ∨ called = .ok (router.orSame called) := by
  cases called with
  | error error => exact Or.inl rfl
  | ok reached => exact Or.inr rfl

theorem Moved.same {router : Router Admission} {action : Action Admission} :
    Moved isEnrolled verifySignature router action router :=
  .administered router.owners router.registrations List.prefix_rfl

theorem moved_of_step {router reached : Router Admission} {action : Action Admission}
    (hstep : router.step isEnrolled verifySignature queueCapacity action = some reached) :
    Moved isEnrolled verifySignature router action reached := by
  cases action with
  | sign publicKey message =>
      obtain rfl := Option.some.inj hstep
      exact .administered _ _ (List.prefix_append _ _)
  | disown =>
      obtain rfl := Option.some.inj hstep
      exact .administered _ _ List.prefix_rfl
  | challenge now identity challenge =>
      rw [step] at hstep
      split at hstep
      case isFalse => cases hstep
      case isTrue =>
        obtain rfl := Option.some.inj hstep
        obtain hsame | hreached :=
          orSame_cases router (router.challenge isEnrolled now identity challenge)
        · rw [hsame]
          exact .same
        · unfold Router.challenge at hreached ⊢
          split at hreached
          case isTrue => cases hreached
          case isFalse hunenrolled =>
            rw [if_neg hunenrolled]
            exact .administered _ _ List.prefix_rfl
  | complete now index signature =>
      obtain ⟨registration, hregistration, rfl⟩ := Option.map_eq_some_iff.mp hstep
      dsimp only
      generalize hleft : ({ router with
        registrations := router.registrations.eraseIdx index } : Router Admission) = left
      obtain hsame | hreached := orSame_cases left (left.register isEnrolled verifySignature now
        registration.identity registration.challenge signature)
      · rw [hsame, ← hleft]
        exact .administered _ _ List.prefix_rfl
      · generalize left.orSame _ = reached at hreached ⊢
        unfold Router.register at hreached
        split at hreached
        case isTrue => cases hreached
        case isFalse henrolled =>
          split at hreached
          case isTrue => cases hreached
          case isFalse hsignature =>
            obtain rfl := Except.ok.inj hreached
            rw [← hleft]
            exact .registered _ hregistration (Bool.eq_true_of_not_eq_false henrolled)
              (Bool.eq_true_of_not_eq_false hsignature)
  | send index frame =>
      obtain ⟨connection, hfound, rfl⟩ := Option.map_eq_some_iff.mp hstep
      have hconnection := (Option.filter_eq_some_iff.mp hfound).1
      unfold orSame
      split
      case h_2 => exact .same
      case h_1 reached hreached =>
        unfold Router.send at hreached
        split at hreached
        case h_1 => cases hreached
        case h_2 =>
          split at hreached
          case isTrue => cases hreached
          case isFalse hsource =>
            rw [not_or, not_not, not_not] at hsource
            split at hreached
            case isTrue => cases hreached
            case isFalse =>
              dsimp only at hreached
              split at hreached
              case isTrue => cases hreached
              case isFalse hcurrent =>
                split at hreached
                case h_1 => cases hreached
                case h_2 route hroute =>
                  split at hreached
                  case h_1 => cases hreached
                  case h_2 destination hdestination =>
                    split at hreached
                    case isTrue => cases hreached
                    case isFalse =>
                      split at hreached
                      case isTrue => cases hreached
                      case isFalse =>
                        obtain rfl := Except.ok.inj hreached
                        exact .sent hconnection hsource.1 hsource.2
                          (Bool.eq_true_of_not_eq_false hcurrent) hroute hdestination
  | receive index =>
      obtain ⟨connection, hfound, rfl⟩ := Option.map_eq_some_iff.mp hstep
      obtain ⟨hconnection, hguard⟩ := Option.filter_eq_some_iff.mp hfound
      have hidle : connection.receiving = .idle := by
        rw [Bool.and_eq_true] at hguard
        exact eq_of_beq hguard.2
      split
      case isTrue =>
        refine .progressed hconnection rfl rfl rfl ?_
        unfold RelayConnection.pending
        rw [hidle]
      case isFalse => exact .same
  | take index =>
      obtain ⟨connection, hfound, hstep⟩ := Option.bind_eq_some_iff.mp hstep
      obtain ⟨hconnection, hguard⟩ := Option.filter_eq_some_iff.mp hfound
      have hwaiting : connection.receiving = .waiting := eq_of_beq hguard
      split at hstep
      case h_1 frame queue hqueue =>
        obtain rfl := Option.some.inj hstep
        refine .progressed hconnection rfl rfl rfl ?_
        unfold RelayConnection.pending
        rw [hwaiting, hqueue]
      case h_2 hqueue =>
        split at hstep
        case isTrue => cases hstep
        case isFalse =>
          obtain rfl := Option.some.inj hstep
          refine .progressed hconnection rfl rfl rfl ?_
          unfold RelayConnection.pending
          rw [hwaiting]
  | deliver index =>
      obtain ⟨connection, hconnection, hstep⟩ := Option.bind_eq_some_iff.mp hstep
      split at hstep
      case h_2 => cases hstep
      case h_1 taken hreceiving =>
        have hlost : ({ connection with receiving := .idle } : RelayConnection Admission).pending
            |>.Sublist connection.pending := by
          exact connection.queue_sublist_pending
        obtain rfl := Option.some.inj hstep
        split
        case h_1 frame hframe =>
          split at hframe
          case isFalse => cases hframe
          case isTrue hcurrent =>
            subst hframe
            exact .delivered hconnection hreceiving hcurrent
        case h_2 => exact .progressed hconnection rfl rfl rfl hlost
  | cancel index =>
      obtain ⟨connection, hfound, rfl⟩ := Option.map_eq_some_iff.mp hstep
      obtain ⟨hconnection, hguard⟩ := Option.filter_eq_some_iff.mp hfound
      have hwaiting : connection.receiving = .waiting := eq_of_beq hguard
      refine .progressed hconnection rfl rfl rfl ?_
      unfold RelayConnection.pending
      rw [hwaiting]
  | drop index =>
      obtain ⟨connection, hfound, rfl⟩ := Option.map_eq_some_iff.mp hstep
      obtain ⟨hconnection, -⟩ := Option.filter_eq_some_iff.mp hfound
      split
      case isTrue hcurrent =>
        rw [Bool.and_eq_true] at hcurrent
        exact .dropped hconnection hcurrent.2
      case isFalse => exact .progressed hconnection rfl rfl rfl (List.Sublist.refl _)

end Router

end Mews.Relay
