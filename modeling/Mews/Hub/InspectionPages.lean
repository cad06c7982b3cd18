import Mathlib.Data.String.Basic
import Mews.Hub.Inspections

/-!
# Pages of Hosts and of inspected tools

A reader who follows the cursors reads every Host and every tool once, and is refused only
what does not fit.
-/

namespace Mews

open Protocol HostProtocol

/-! ## Pages of Hosts -/

section Hosts

variable {requestId : RequestId} {hosts remaining : List HostStatus} {after : Option HostId}
  {limit count : ℕ}

/-- A frame is as long with one request identifier as with another. -/
theorem hubResponseFits_iff {response : HubResponse} :
    hubResponseFits requestId response = true ↔
      ∀ requestId, response.frameBytes requestId ≤ maxHubFrameBytes :=
  ⟨fun hfits _ => of_decide_eq_true hfits, fun hfits => decide_eq_true (hfits requestId)⟩

/-- Behind whom nobody remains is not sorted before whom somebody does. -/
theorem filter_eq_drop {A : Type} {p : A → Bool} {items : List A}
    (hmono : items.Pairwise fun left right => p left = true → p right = true) :
    items.filter p = items.drop (items.countP fun item => !p item) := by
  induction items with
  | nil => rfl
  | cons item items ih =>
      obtain ⟨hitem, hitems⟩ := List.pairwise_cons.mp hmono
      cases hp : p item with
      | true =>
          have hall : ∀ other ∈ items, p other = true := fun other hmem => hitem other hmem hp
          have hnone : items.countP (fun other => !p other) = 0 := by
            rw [List.countP_eq_zero]
            intro other hmem
            rw [hall other hmem]
            exact Bool.false_ne_true
          rw [List.filter_cons_of_pos hp, List.filter_eq_self.mpr hall,
            List.countP_cons_of_neg (by simp [hp]), hnone, List.drop_zero]
      | false =>
          rw [List.filter_cons_of_neg (by simp [hp]), List.countP_cons_of_pos (by simp [hp]),
            List.drop_succ_cons, ih hitems]

/-- The identifiers of the Hosts are different from each other. -/
def DistinctIds (hosts : List HostStatus) : Prop := (hosts.map (·.host.id)).Nodup

instance (hosts : List HostStatus) : Decidable (DistinctIds hosts) :=
  inferInstanceAs (Decidable (List.Nodup _))

theorem sortedHosts_perm (hosts : List HostStatus) : (sortedHosts hosts).Perm hosts :=
  List.mergeSort_perm hosts _

theorem asStr_injective {left right : HostId} (hsame : left.asStr = right.asStr) : left = right := by
  have hchars := congrArg String.toList hsame
  rw [TaggedId.asStr, TaggedId.asStr, String.toList_append, String.toList_append] at hchars
  cases left
  cases right
  exact congrArg _ (String.toList_injective (List.append_cancel_left hchars))

theorem pairwise_sortedHosts (hids : DistinctIds hosts) :
    (sortedHosts hosts).Pairwise fun left right => left.host.id.asStr < right.host.id.asStr := by
  have hle : (sortedHosts hosts).Pairwise fun left right =>
      left.host.id.asStr ≤ right.host.id.asStr := by
    have hsorted : (sortedHosts hosts).Pairwise fun left right =>
        decide (left.host.id.asStr ≤ right.host.id.asStr) = true :=
      List.pairwise_mergeSort (by simpa using fun a b c => le_trans)
        (by simpa using fun a b => le_total _ _) hosts
    exact hsorted.imp fun hle => of_decide_eq_true hle
  have hne : (sortedHosts hosts).Pairwise fun left right => left.host.id ≠ right.host.id := by
    rw [← List.pairwise_map]
    exact ((sortedHosts_perm hosts).map _).nodup_iff.mpr hids
  exact hle.imp₂ (fun left right hle hne => hle.lt_of_ne fun hsame => hne (asStr_injective hsame)) hne

theorem remains_iff {cursor : HostId} {status : HostStatus} :
    status.remains (some cursor) = true ↔ cursor.asStr < status.host.id.asStr :=
  decide_eq_true_iff

/-- How many Hosts a reader with this cursor has read. -/
def hostPlace (hosts : List HostStatus) (after : Option HostId) : ℕ :=
  (sortedHosts hosts).countP fun status => !status.remains after

theorem remainingHosts_eq (hids : DistinctIds hosts) (after : Option HostId) :
    remainingHosts hosts after = (sortedHosts hosts).drop (hostPlace hosts after) := by
  apply filter_eq_drop
  apply (pairwise_sortedHosts hids).imp
  intro left right hlt hleft
  cases after with
  | none => rfl
  | some after => exact remains_iff.mpr ((remains_iff.mp hleft).trans hlt)

/-- The cursor of a page stands behind its last Host. -/
theorem hostPlace_last (hids : DistinctIds hosts) {before page rest : List HostStatus}
    {last : HostStatus} (hsplit : sortedHosts hosts = before ++ page ++ rest)
    (hlast : page.getLast? = some last) :
    hostPlace hosts (some last.host.id) = before.length + page.length := by
  have hordered := pairwise_sortedHosts hids
  rw [hsplit] at hordered
  obtain ⟨hread, -, hrest⟩ := List.pairwise_append.mp hordered
  obtain ⟨init, rfl⟩ : ∃ init, page = init ++ [last] := ⟨page.dropLast, by
    rw [List.dropLast_append_getLast? last hlast]⟩
  have hbehind : ∀ status ∈ before ++ (init ++ [last]),
      status.host.id.asStr ≤ last.host.id.asStr := by
    intro status hmem
    rw [← List.append_assoc] at hread hmem
    rcases List.mem_append.mp hmem with hearlier | hsame
    · exact ((List.pairwise_append.mp hread).2.2 status hearlier last List.mem_cons_self).le
    · rw [List.mem_singleton.mp hsame]
  have hahead : ∀ status ∈ rest, last.host.id.asStr < status.host.id.asStr := fun status hmem =>
    hrest last (by simp) status hmem
  rw [hostPlace, hsplit, List.countP_append, ← List.length_append]
  have hall : (before ++ (init ++ [last])).countP (fun status =>
      !status.remains (some last.host.id)) = (before ++ (init ++ [last])).length := by
    rw [List.countP_eq_length]
    intro status hmem
    rw [Bool.not_eq_true', Bool.eq_false_iff, Ne, remains_iff]
    exact (hbehind status hmem).not_gt
  have hnone : rest.countP (fun status => !status.remains (some last.host.id)) = 0 := by
    rw [List.countP_eq_zero]
    intro status hmem
    rw [remains_iff.mpr (hahead status hmem)]
    exact Bool.false_ne_true
  rw [hall, hnone, Nat.add_zero]

/-- The pages of Hosts for a reader. -/
def fetchHosts (requestId : RequestId) (hosts : List HostStatus) (after : Option HostId)
    (limit : ℕ) : Except String (Cursors.Page HostStatus HostId) :=
  (hostPage requestId hosts after limit).map fun page => ⟨page.hosts, page.next⟩

/-- What is known of a page that is handed out. -/
theorem hostPage_ok {page : HostPage} (hpage : hostPage requestId hosts after limit = .ok page) :
    ∃ low ≤ (remainingHosts hosts after).length, page = hostPageTo (remainingHosts hosts after) low ∧
      (remainingHosts hosts after ≠ [] →
        0 < low ∧ hubResponseFits requestId (.hosts page) = true) := by
  rw [hostPage] at hpage
  split at hpage
  · cases hpage
  · dsimp only at hpage
    split at hpage
    · cases hpage
    · next low hsearch =>
        obtain ⟨-, hmax, hfits, -⟩ := Cursors.search_ok hsearch
        split at hpage
        · cases hpage
        · next hsome =>
            obtain rfl := Except.ok.inj hpage
            refine ⟨low, by omega, rfl, fun hne => ?_⟩
            have hpos : 0 < low := Nat.pos_of_ne_zero fun hzero => hsome ⟨hzero, hne⟩
            exact ⟨hpos, Except.ok.inj (hfits hpos)⟩

theorem fetchHosts_ok {page : Cursors.Page HostStatus HostId}
    (hfetch : fetchHosts requestId hosts after limit = .ok page) :
    ∃ found, hostPage requestId hosts after limit = .ok found ∧
      page = ⟨found.hosts, found.next⟩ := by
  rw [fetchHosts] at hfetch
  cases hfound : hostPage requestId hosts after limit with
  | error error =>
      rw [hfound] at hfetch
      cases hfetch
  | ok found =>
      rw [hfound] at hfetch
      exact ⟨found, rfl, (Except.ok.inj hfetch).symm⟩

/-- There is a cursor as long as Hosts are left. -/
theorem next_hostPageTo (hcount : 0 < count) :
    (hostPageTo remaining count).next = none ∧ remaining.length ≤ count ∨
      ∃ last, (remaining.take count).getLast? = some last ∧ count < remaining.length ∧
        (hostPageTo remaining count).next = some last.host.id := by
  rw [hostPageTo]
  dsimp only
  split_ifs with hmore
  · right
    have hne : remaining.take count ≠ [] := by
      rw [Ne, List.take_eq_nil_iff, not_or]
      exact ⟨hcount.ne', List.ne_nil_of_length_pos (hcount.trans hmore)⟩
    have hlast := List.getLast?_eq_some_getLast hne
    exact ⟨_, hlast, hmore, by rw [hlast]; rfl⟩
  · exact Or.inl ⟨rfl, Nat.le_of_not_lt hmore⟩

theorem slices_fetchHosts (hids : DistinctIds hosts) :
    Cursors.Slices (fetchHosts requestId hosts) (sortedHosts hosts) (hostPlace hosts) := by
  constructor
  · intro after limit page hfetch
    obtain ⟨found, hfound, rfl⟩ := fetchHosts_ok hfetch
    obtain ⟨low, -, rfl, -⟩ := hostPage_ok hfound
    rw [← remainingHosts_eq hids]
    exact List.take_prefix low _
  · intro after limit page hfetch hnext
    obtain ⟨found, hfound, rfl⟩ := fetchHosts_ok hfetch
    obtain ⟨low, hle, rfl, hsome⟩ := hostPage_ok hfound
    rw [← remainingHosts_eq hids]
    change (remainingHosts hosts after).take low = _
    by_cases hnone : remainingHosts hosts after = []
    · rw [hnone, List.take_nil]
    · rcases next_hostPageTo (hsome hnone).1 with ⟨-, hall⟩ | ⟨last, -, -, hlast⟩
      · exact List.take_of_length_le hall
      · cases hlast.symm.trans hnext
  · intro after limit page cursor hfetch hnext
    obtain ⟨found, hfound, rfl⟩ := fetchHosts_ok hfetch
    obtain ⟨low, hle, rfl, hsome⟩ := hostPage_ok hfound
    have hne : remainingHosts hosts after ≠ [] := by
      intro hnone
      rw [hnone, List.length_nil, Nat.le_zero] at hle
      rw [hnone, hle] at hnext
      cases hnext
    rcases next_hostPageTo (hsome hne).1 with ⟨hnone, -⟩ | ⟨last, hlast, hmore, hcursor⟩
    · cases hnone.symm.trans hnext
    · obtain rfl := Option.some.inj (hcursor.symm.trans hnext)
      have hsplit : sortedHosts hosts = (sortedHosts hosts).take (hostPlace hosts after) ++
          (remainingHosts hosts after).take low ++ (remainingHosts hosts after).drop low := by
        rw [List.append_assoc, List.take_append_drop, remainingHosts_eq hids,
          List.take_append_drop]
      have hplace : ((sortedHosts hosts).take (hostPlace hosts after)).length =
          hostPlace hosts after :=
        List.length_take_of_le List.countP_le_length
      constructor
      · intro hempty
        change (remainingHosts hosts after).take low = [] at hempty
        rw [hempty] at hlast
        cases hlast
      · rw [hostPlace_last hids hsplit hlast, hplace]
        rfl

/-- The page of a single Host, with the cursor it needs if it is not the last. -/
def lonePage (status : HostStatus) (rest : List HostStatus) : HostPage where
  hosts := [status]
  next := if rest = [] then none else some status.host.id

theorem hostPageTo_one (status : HostStatus) (rest : List HostStatus) :
    hostPageTo (status :: rest) 1 = lonePage status rest := by
  cases rest with
  | nil => rfl
  | cons other rest => rfl

/-- A page fails only without a limit, or when a single Host does not fit. -/
theorem hostPage_error {error : String}
    (hfailed : hostPage requestId hosts after limit = .error error) :
    limit = 0 ∨ ∃ status rest, remainingHosts hosts after = status :: rest ∧
      hubResponseFits requestId (.hosts (lonePage status rest)) = false := by
  rw [hostPage] at hfailed
  split at hfailed
  · next hzero => exact Or.inl hzero
  · next hlimit =>
      right
      dsimp only at hfailed
      split at hfailed
      · next hsearch =>
          obtain ⟨count, -, -, hcount⟩ := Cursors.search_error hsearch
          cases hcount
      · next low hsearch =>
          split at hfailed
          · next hnone =>
              obtain ⟨rfl, hne⟩ := hnone
              obtain ⟨status, rest, hremaining⟩ := List.exists_cons_of_ne_nil hne
              have hroom := (Cursors.search_ok hsearch).2.2.2 rfl (by
                rw [hremaining, List.length_cons]
                omega)
              rw [Nat.zero_add, hremaining, hostPageTo_one] at hroom
              exact ⟨status, rest, hremaining, Except.ok.inj hroom⟩
          · cases hfailed

/-- The Hosts are read page by page, each once and in the order of their identifiers. -/
structure HostsPaged (hosts : List HostStatus) : Prop where
  follow : ∀ requestId limits, hosts.length < limits.length → (∀ limit ∈ limits, 0 < limit) →
    Cursors.follow (fetchHosts requestId hosts) limits none = .ok (sortedHosts hosts) ∨
      ∃ after status rest, remainingHosts hosts after = status :: rest ∧
        hubResponseFits requestId (.hosts (lonePage status rest)) = false
  fits : ∀ requestId after limit page, hostPage requestId hosts after limit = .ok page →
    ∀ requestId, (HubResponse.hosts page).frameBytes requestId ≤ maxHubFrameBytes
  nonempty : ∀ requestId after limit page, hostPage requestId hosts after limit = .ok page →
    page.hosts = [] → remainingHosts hosts after = []
  error : ∀ requestId after limit error, hostPage requestId hosts after limit = .error error →
    limit = 0 ∨ ∃ status rest, remainingHosts hosts after = status :: rest ∧
      hubResponseFits requestId (.hosts (lonePage status rest)) = false

theorem hostsPaged (hids : DistinctIds hosts) : HostsPaged hosts where
  follow requestId limits henough hlimits := by
    cases hread : Cursors.follow (fetchHosts requestId hosts) limits none with
    | ok read =>
        left
        have hplace : hostPlace hosts none = 0 := List.countP_eq_zero.mpr fun _ _ => Bool.false_ne_true
        have hall := (slices_fetchHosts hids).follow_eq hread (by
          rw [hplace, (sortedHosts_perm hosts).length_eq]
          exact henough)
        rw [hall, hplace, List.drop_zero]
    | error error =>
        right
        obtain ⟨after, -, limit, hlimit, hfetch⟩ :=
          Cursors.follow_error (fun _ => True) (fun _ _ _ _ _ _ _ => trivial) trivial hread
        have hfailed : hostPage requestId hosts after limit = .error error := by
          rw [fetchHosts] at hfetch
          cases hfound : hostPage requestId hosts after limit with
          | error error' =>
              rw [hfound] at hfetch
              exact congrArg _ (Except.error.inj hfetch)
          | ok found =>
              rw [hfound] at hfetch
              cases hfetch
        rcases hostPage_error hfailed with hzero | hlone
        · exact absurd hzero (hlimits limit hlimit).ne'
        · exact ⟨after, hlone⟩
  fits requestId after limit page hpage := by
    obtain ⟨low, hle, hpage', hsome⟩ := hostPage_ok hpage
    by_cases hnone : remainingHosts hosts after = []
    · rw [hnone, List.length_nil, Nat.le_zero] at hle
      rw [hpage', hnone, hle]
      intro requestId
      have hempty : (HubResponse.hosts (hostPageTo [] 0)).frameBytes requestId ≤ maxHubFrameBytes := by
        change (HubResponse.hosts (hostPageTo [] 0)).frameBytes ⟨""⟩ ≤ maxHubFrameBytes
        decide
      exact hempty
    · exact hubResponseFits_iff.mp (hsome hnone).2
  nonempty requestId after limit page hpage hempty := by
    obtain ⟨low, hle, rfl, hsome⟩ := hostPage_ok hpage
    by_contra hne
    have hpos := (hsome hne).1
    rw [hostPageTo, List.take_eq_nil_iff] at hempty
    rcases hempty with hzero | hnil
    · exact hpos.ne' hzero
    · exact hne hnil
  error _ _ _ _ hfailed := hostPage_error hfailed

end Hosts

/-! ## Pages of tools -/

section Tools

variable {requestId : RequestId} {inspection page : AgentInspection} {host : AgentHostInspection}
  {allTools : List AgentToolInspection} {snapshotHash : SnapshotHash}
  {afterTool : Option AgentToolCursor} {toolLimit start stop : ℕ}

/-- Where a cursor stands. -/
def toolPlace (afterTool : Option AgentToolCursor) : ℕ := afterTool.elim 0 (·.offset)

def toolsFit (requestId : RequestId) (inspection : AgentInspection) (host : AgentHostInspection)
    (page : AgentToolInspectionPage) : Bool :=
  hubResponseFits requestId (.agentInspection (inspection.withTools host page))

theorem map_eq_ok {A B : Type} {result : Except String A} {f : A → B} {value : B}
    (hmap : result.map f = .ok value) : ∃ found, result = .ok found ∧ f found = value := by
  cases result with
  | error error => cases hmap
  | ok found => exact ⟨found, rfl, Except.ok.inj hmap⟩

/-- The interval of a page without tools needs no cursor. -/
theorem toolPageTo_self (hend : ¬start < allTools.length) :
    toolPageTo allTools snapshotHash start start = .ok { tools := [], next := none } := by
  rw [toolPageTo, if_neg hend, List.drop_take_self]

/-- What is known of a page that is handed out. -/
theorem paginateAgentInspection_ok (hhost : inspection.host = some host)
    (hpage : paginateAgentInspection requestId inspection allTools snapshotHash afterTool
      toolLimit = .ok page) :
    ∃ low toolPage, toolPlace afterTool ≤ low ∧ low ≤ allTools.length ∧
      (toolPlace afterTool < allTools.length → toolPlace afterTool < low) ∧
      toolPageTo allTools snapshotHash (toolPlace afterTool) low = .ok toolPage ∧
      page = inspection.withTools host toolPage ∧
      toolsFit requestId inspection host toolPage = true := by
  rw [paginateAgentInspection] at hpage
  split at hpage
  · cases hpage
  split at hpage
  · cases hpage
  dsimp only at hpage
  split at hpage
  · cases hpage
  next hstart =>
    rw [hhost] at hpage
    dsimp only at hpage
    split at hpage
    · cases hpage
    next hmetadata =>
      split at hpage
      · cases hpage
      next low hsearch =>
        split at hpage
        · cases hpage
        next hsome =>
          change ¬allTools.length < toolPlace afterTool at hstart
          change ¬(low = toolPlace afterTool ∧ toolPlace afterTool < allTools.length) at hsome
          obtain ⟨hle, hmax, hfits, -⟩ := Cursors.search_ok hsearch
          change toolPlace afterTool ≤ low at hle
          change low ≤ max (toolPlace afterTool) _ at hmax
          obtain ⟨toolPage, htools, hpage⟩ := map_eq_ok hpage
          refine ⟨low, toolPage, hle, by omega, by omega, htools, hpage.symm, ?_⟩
          rcases hle.lt_or_eq with hless | rfl
          · obtain ⟨found, hfound, hroom⟩ := map_eq_ok (hfits hless)
            obtain rfl := Except.ok.inj (hfound.symm.trans htools)
            exact hroom
          · have hempty : toolPageTo allTools snapshotHash (toolPlace afterTool)
                (toolPlace afterTool) = .ok { tools := [], next := none } :=
              toolPageTo_self fun hend => hsome ⟨rfl, hend⟩
            obtain rfl := Except.ok.inj (hempty.symm.trans htools)
            rw [Bool.not_eq_true', Bool.not_eq_false] at hmetadata
            exact hmetadata

/-- The reasons for which a page is refused. -/
inductive Refused (requestId : RequestId) (inspection : AgentInspection)
    (host : AgentHostInspection) (allTools : List AgentToolInspection)
    (snapshotHash : SnapshotHash) (afterTool : Option AgentToolCursor) (toolLimit : ℕ) : Prop where
  | limit (hlimit : toolLimit = 0)
  | snapshot {cursor : AgentToolCursor} (hafter : afterTool = some cursor)
      (hhash : cursor.snapshotHash ≠ snapshotHash)
  | outside (hstart : allTools.length < toolPlace afterTool)
  | metadata (hfits : toolsFit requestId inspection host { tools := [], next := none } = false)
  | entries (hmany : 2 ^ 32 < allTools.length)
  | tool {tool : AgentToolInspection} {toolPage : AgentToolInspectionPage}
      (htool : allTools[toolPlace afterTool]? = some tool) (halone : toolPage.tools = [tool])
      (hlone : toolPageTo allTools snapshotHash (toolPlace afterTool) (toolPlace afterTool + 1) =
        .ok toolPage)
      (hfits : toolsFit requestId inspection host toolPage = false)

/-- What a page of tools has, and where its cursor stands. -/
theorem toolPageTo_ok {toolPage : AgentToolInspectionPage}
    (hpage : toolPageTo allTools snapshotHash start stop = .ok toolPage) :
    toolPage.tools = (allTools.take stop).drop start ∧
      (toolPage.next = none ∧ allTools.length ≤ stop ∨
        toolPage.next = some { snapshotHash, offset := stop } ∧ stop < allTools.length) := by
  rw [toolPageTo] at hpage
  split_ifs at hpage with hmore hsmall
  · obtain rfl := Except.ok.inj hpage
    exact ⟨rfl, Or.inr ⟨rfl, hmore⟩⟩
  · obtain rfl := Except.ok.inj hpage
    exact ⟨rfl, Or.inl ⟨rfl, Nat.le_of_not_lt hmore⟩⟩

theorem length_of_toolPageTo_error {error : String}
    (hfailed : toolPageTo allTools snapshotHash start stop = .error error) :
    2 ^ 32 < allTools.length := by
  rw [toolPageTo] at hfailed
  split_ifs at hfailed with hmore hsmall
  omega

theorem refused_of_error (hhost : inspection.host = some host) {error : String}
    (hfailed : paginateAgentInspection requestId inspection allTools snapshotHash afterTool
      toolLimit = .error error) :
    Refused requestId inspection host allTools snapshotHash afterTool toolLimit := by
  rw [paginateAgentInspection] at hfailed
  split at hfailed
  · next hlimit => exact .limit hlimit
  next hlimit =>
    split at hfailed
    · next hhash =>
        cases afterTool with
        | none => cases hhash
        | some cursor => exact .snapshot rfl (of_decide_eq_true hhash)
    dsimp only at hfailed
    split at hfailed
    · next hstart => exact .outside hstart
    next hstart =>
      rw [hhost] at hfailed
      dsimp only at hfailed
      split at hfailed
      · next hmetadata =>
          rw [Bool.not_eq_true'] at hmetadata
          exact .metadata hmetadata
      next hmetadata =>
        split at hfailed
        · next hsearch =>
            obtain ⟨count, -, -, hcount⟩ := Cursors.search_error hsearch
            cases hfound : toolPageTo allTools snapshotHash (toolPlace afterTool) count with
            | error error => exact .entries (length_of_toolPageTo_error hfound)
            | ok found =>
                change (toolPageTo allTools snapshotHash (toolPlace afterTool) count).map _ =
                  _ at hcount
                rw [hfound] at hcount
                cases hcount
        next low hsearch =>
          split at hfailed
          · next hnone =>
              obtain ⟨rfl, hmore⟩ := hnone
              have hroom := (Cursors.search_ok hsearch).2.2.2 rfl (by
                rw [lt_min_iff]
                exact ⟨hmore, Nat.lt_add_of_pos_right (Nat.pos_of_ne_zero hlimit)⟩)
              change (toolPageTo allTools snapshotHash (toolPlace afterTool)
                (toolPlace afterTool + 1)).map _ = _ at hroom
              change toolPlace afterTool < allTools.length at hmore
              obtain ⟨toolPage, hlone, hfits⟩ := map_eq_ok hroom
              refine .tool (List.getElem?_eq_getElem hmore) ?_ hlone hfits
              rw [(toolPageTo_ok hlone).1, List.take_add_one, List.getElem?_eq_getElem hmore, Option.toList_some,
                List.drop_left' (List.length_take_of_le hmore.le)]
          next hsome =>
            cases hfound : toolPageTo allTools snapshotHash (toolPlace afterTool) low with
            | error error => exact .entries (length_of_toolPageTo_error hfound)
            | ok found =>
                change (toolPageTo allTools snapshotHash (toolPlace afterTool) low).map _ =
                  _ at hfailed
                rw [hfound] at hfailed
                cases hfailed

/-- The tools of an inspection that a client sees. -/
def AgentInspection.toolPage (inspection : AgentInspection) :
    Cursors.Page AgentToolInspection AgentToolCursor :=
  match inspection.host with
  | none => ⟨[], none⟩
  | some host => ⟨host.tools.tools, host.tools.next⟩

/-- The pages of tools for a reader. -/
def fetchTools (requestId : RequestId) (inspection : AgentInspection)
    (allTools : List AgentToolInspection) (snapshotHash : SnapshotHash)
    (afterTool : Option AgentToolCursor) (toolLimit : ℕ) :
    Except String (Cursors.Page AgentToolInspection AgentToolCursor) :=
  (paginateAgentInspection requestId inspection allTools snapshotHash afterTool toolLimit).map
    (·.toolPage)

theorem fetchTools_ok (hhost : inspection.host = some host)
    {fetched : Cursors.Page AgentToolInspection AgentToolCursor}
    (hfetch : fetchTools requestId inspection allTools snapshotHash afterTool toolLimit =
      .ok fetched) :
    ∃ low, toolPlace afterTool ≤ low ∧ low ≤ allTools.length ∧
      (toolPlace afterTool < allTools.length → toolPlace afterTool < low) ∧
      fetched.items = (allTools.take low).drop (toolPlace afterTool) ∧
      (fetched.next = none ∧ allTools.length ≤ low ∨
        fetched.next = some { snapshotHash, offset := low } ∧ low < allTools.length) := by
  obtain ⟨page, hpage, rfl⟩ := map_eq_ok hfetch
  obtain ⟨low, toolPage, hle, hlength, hsome, htools, rfl, -⟩ :=
    paginateAgentInspection_ok hhost hpage
  obtain ⟨hitems, hnext⟩ := toolPageTo_ok htools
  exact ⟨low, hle, hlength, hsome, hitems, hnext⟩

theorem slices_fetchTools (hhost : inspection.host = some host) :
    Cursors.Slices (fetchTools requestId inspection allTools snapshotHash) allTools toolPlace := by
  constructor
  · intro after limit page hfetch
    obtain ⟨low, -, -, -, hitems, -⟩ := fetchTools_ok hhost hfetch
    rw [hitems, List.drop_take]
    exact List.take_prefix _ _
  · intro after limit page hfetch hnext
    obtain ⟨low, -, -, -, hitems, ⟨-, hall⟩ | ⟨hsome, -⟩⟩ := fetchTools_ok hhost hfetch
    · rw [hitems, List.take_of_length_le hall]
    · cases hsome.symm.trans hnext
  · intro after limit page cursor hfetch hnext
    obtain ⟨low, hle, hlength, hsome, hitems, ⟨hnone, -⟩ | ⟨hcursor, hmore⟩⟩ :=
      fetchTools_ok hhost hfetch
    · cases hnone.symm.trans hnext
    · obtain rfl := Option.some.inj (hcursor.symm.trans hnext)
      have hcount : page.items.length = low - toolPlace after := by
        rw [hitems, List.length_drop, List.length_take_of_le hlength]
      have hless := hsome (hle.trans_lt hmore)
      constructor
      · apply List.ne_nil_of_length_pos
        omega
      · rw [hcount]
        change low = _
        omega

/-- The tools are read page by page, each once and in the order of the catalog. -/
structure ToolsPaged (hasher : SnapshotHasher) (binding : AgentInspectionSnapshotBinding)
    (inspection : AgentInspection) (host : AgentHostInspection)
    (allTools : List AgentToolInspection) : Prop where
  follow : ∀ requestId limits, allTools.length < limits.length → (∀ limit ∈ limits, 0 < limit) →
    Cursors.follow (fetchTools requestId inspection allTools
        (agentInspectionSnapshotHash hasher binding)) limits none = .ok allTools ∨
      toolsFit requestId inspection host { tools := [], next := none } = false ∨
      2 ^ 32 < allTools.length ∨ ∃ start tool toolPage, allTools[start]? = some tool ∧
        toolPage.tools = [tool] ∧ toolPageTo allTools (agentInspectionSnapshotHash hasher binding)
          start (start + 1) = .ok toolPage ∧ toolsFit requestId inspection host toolPage = false
  fits : ∀ requestId after limit page, paginateAgentInspection requestId inspection allTools
    (agentInspectionSnapshotHash hasher binding) after limit = .ok page →
      ∀ requestId, (HubResponse.agentInspection page).frameBytes requestId ≤ maxHubFrameBytes
  nonempty : ∀ requestId after limit page, paginateAgentInspection requestId inspection allTools
    (agentInspectionSnapshotHash hasher binding) after limit = .ok page →
      page.toolPage.items = [] → allTools.length ≤ toolPlace after
  error : ∀ requestId after limit error, paginateAgentInspection requestId inspection allTools
    (agentInspectionSnapshotHash hasher binding) after limit = .error error →
      Refused requestId inspection host allTools (agentInspectionSnapshotHash hasher binding)
        after limit
  /-- Unless the digests of two snapshots collide, a cursor of the one is not taken for the
  other. -/
  foreign : ∀ other : AgentInspectionSnapshotBinding, other ≠ binding →
    (agentInspectionSnapshotHash hasher other = agentInspectionSnapshotHash hasher binding →
      other = binding) →
    ∀ (inspection' : AgentInspection) (host' : AgentHostInspection)
      (allTools' : List AgentToolInspection), inspection'.host = some host' →
    ∀ requestId after limit page cursor, paginateAgentInspection requestId inspection' allTools'
      (agentInspectionSnapshotHash hasher other) after limit = .ok page →
      page.toolPage.next = some cursor →
    ∀ requestId limit, ∃ error, paginateAgentInspection requestId inspection allTools
      (agentInspectionSnapshotHash hasher binding) (some cursor) limit = .error error

/-- A cursor of another snapshot is refused. -/
theorem paginateAgentInspection_foreign {cursor : AgentToolCursor}
    (hhash : cursor.snapshotHash ≠ snapshotHash) :
    ∃ error, paginateAgentInspection requestId inspection allTools snapshotHash (some cursor)
      toolLimit = .error error := by
  rw [paginateAgentInspection]
  split
  · exact ⟨_, rfl⟩
  · have hany : (some cursor).any (fun cursor => cursor.snapshotHash ≠ snapshotHash) = true :=
      decide_eq_true hhash
    rw [if_pos hany]
    exact ⟨_, rfl⟩

theorem toolsPaged (hasher : SnapshotHasher) (binding : AgentInspectionSnapshotBinding)
    (hhost : inspection.host = some host) :
    ToolsPaged hasher binding inspection host allTools where
  follow requestId limits henough hlimits := by
    cases hread : Cursors.follow (fetchTools requestId inspection allTools
        (agentInspectionSnapshotHash hasher binding)) limits none with
    | ok read =>
        left
        have hall := (slices_fetchTools hhost).follow_eq hread henough
        rw [hall]
        rfl
    | error error =>
        right
        -- Every cursor of a page is one of this snapshot.
        obtain ⟨after, hreached, limit, hlimit, hfetch⟩ := Cursors.follow_error
          (fun after => toolPlace after ≤ allTools.length ∧ ∀ cursor ∈ after,
            cursor.snapshotHash = agentInspectionSnapshotHash hasher binding)
          (by
            intro after limit page cursor hafter hpage hnext
            obtain ⟨low, -, hlength, -, -, ⟨hnone, -⟩ | ⟨hcursor, -⟩⟩ := fetchTools_ok hhost hpage
            · cases hnone.symm.trans hnext
            · obtain rfl := Option.some.inj (hcursor.symm.trans hnext)
              refine ⟨hlength, ?_⟩
              rintro _ ⟨⟩
              rfl)
          ⟨Nat.zero_le _, fun _ hmem => absurd hmem (Option.not_mem_none _)⟩ hread
        have hfailed : paginateAgentInspection requestId inspection allTools
            (agentInspectionSnapshotHash hasher binding) after limit = .error error := by
          rw [fetchTools] at hfetch
          cases hfound : paginateAgentInspection requestId inspection allTools
              (agentInspectionSnapshotHash hasher binding) after limit with
          | error error' =>
              rw [hfound] at hfetch
              exact congrArg _ (Except.error.inj hfetch)
          | ok found =>
              rw [hfound] at hfetch
              cases hfetch
        cases refused_of_error hhost hfailed with
        | limit hzero => exact absurd hzero (hlimits limit hlimit).ne'
        | snapshot hafter hhash => exact absurd (hreached.2 _ hafter) hhash
        | outside hstart => exact absurd hreached.1 hstart.not_ge
        | metadata hfits => exact Or.inl hfits
        | entries hmany => exact Or.inr (Or.inl hmany)
        | tool htool halone hlone hfits =>
            exact Or.inr (Or.inr ⟨_, _, _, htool, halone, hlone, hfits⟩)
  fits requestId after limit page hpage := by
    obtain ⟨low, toolPage, -, -, -, -, rfl, hfits⟩ := paginateAgentInspection_ok hhost hpage
    exact hubResponseFits_iff.mp hfits
  nonempty requestId after limit page hpage hempty := by
    have hfetch : fetchTools requestId inspection allTools
        (agentInspectionSnapshotHash hasher binding) after limit = .ok page.toolPage := by
      rw [fetchTools, hpage]
      rfl
    obtain ⟨low, hle, hlength, hsome, hitems, -⟩ := fetchTools_ok hhost hfetch
    by_contra hmore
    have hless := hsome (Nat.lt_of_not_le hmore)
    have hcount := congrArg List.length (hitems.symm.trans hempty)
    rw [List.length_drop, List.length_take_of_le hlength, List.length_nil] at hcount
    omega
  error _ _ _ _ hfailed := refused_of_error hhost hfailed
  foreign := by
    intro other hother hcollision inspection' host' allTools' hhost' requestId after limit page
      cursor hpage hnext _ _
    have hfetch : fetchTools requestId inspection' allTools'
        (agentInspectionSnapshotHash hasher other) after limit = .ok page.toolPage := by
      rw [fetchTools, hpage]
      rfl
    obtain ⟨low, -, -, -, -, ⟨hnone, -⟩ | ⟨hcursor, -⟩⟩ := fetchTools_ok hhost' hfetch
    · cases hnone.symm.trans hnext
    · obtain rfl := Option.some.inj (hcursor.symm.trans hnext)
      exact paginateAgentInspection_foreign fun hsame => hother (hcollision hsame)

end Tools

/-- Hosts and tools are read page by page, without a gap and without a repetition. -/
theorem inspection_paging {hosts : List HostStatus} {inspection : AgentInspection}
    {host : AgentHostInspection} (hids : DistinctIds hosts) (hhost : inspection.host = some host)
    (hasher : SnapshotHasher) (binding : AgentInspectionSnapshotBinding)
    (allTools : List AgentToolInspection) :
    HostsPaged hosts ∧ ToolsPaged hasher binding inspection host allTools :=
  ⟨hostsPaged hids, toolsPaged hasher binding hhost⟩

namespace TwoHosts

def hostNamed (uuid name : String) : HostStatus where
  host :=
    { id := ⟨uuid⟩
      name
      publicKey := "key"
      noisePublicKey := "noise"
      relayUrl := none
      createdAt := 0 }
  connected := true

def first : HostStatus := hostNamed "0198c0de-0000-7000-8000-000000000001" "desk"

def second : HostStatus := hostNamed "0198c0de-0000-7000-8000-000000000002" "attic"

def hostInspection : AgentHostInspection where
  host := first.host
  connected := true
  harness := none
  harnessNativeAuthority := .notApplicable
  acpSkillTools := { names := [], state := .notApplicable }
  toolCatalogGeneration := some 1
  tools := { tools := [], next := none }

def config : AgentConfig where
  harness := "mews"
  harnessOptions := []
  tools := ["*"]
  toolExecution := .parallel

def agent : Agent where
  id := ⟨"0198c0de-0000-7000-8000-000000000003"⟩
  slug := "mews"
  currentRevision := 1
  archived := false
  createdAt := 0

def revision : AgentRevision where
  agentId := agent.id
  revision := 1
  soul := "soul"
  configToml := "harness = 'mews'"
  contentHash := "hash"
  authorHostId := first.host.id
  createdAt := 0

def inspection : AgentInspection where
  agent := agent
  revisionHash := "hash"
  authorHostId := first.host.id
  config := config
  host := some hostInspection

def tools : List AgentToolInspection :=
  [{ name := "read", source := .mewsNative, allowlistMatch := true, exposure := .exposed },
    { name := "write", source := .mewsNative, allowlistMatch := true, exposure := .exposed }]

def binding : AgentInspectionSnapshotBinding where
  agent := agent
  revision := revision
  config := config
  host := some first.host
  connected := true
  harness := none
  toolCatalog := none
  acpSkillTools := some hostInspection.acpSkillTools
  tools := tools

/-- A digest that stands for the one of this snapshot. -/
def hasher : SnapshotHasher where
  toVec _ := []
  sha256 _ := Vector.replicate 32 7

theorem two_hosts_paged :
    HostsPaged [second, first] ∧ ToolsPaged hasher binding inspection hostInspection tools :=
  inspection_paging (by decide) rfl hasher binding tools

/-- A page of no Hosts is refused, although every Host fits. -/
theorem no_limit_refused :
    (∃ error, hostPage ⟨""⟩ [first] none 0 = .error error) ∧
      hubResponseFits ⟨""⟩ (.hosts (lonePage first [])) = true :=
  ⟨⟨_, rfl⟩, by decide⟩

end TwoHosts

end Mews
