import Mathlib.Data.List.Sort
import Mews.Core.Paging
import Mews.Store.RawResults
import Mews.Store.Replay

/-!
# Reading the journal in pages

The Hub scans the journal in batches, filters while it scans, and ends a page at
the first entry that passes its item limit or its byte limit.  A reader follows
the cursors of the pages while the Store goes on committing.
-/

namespace Mews

open Protocol Paging

def maxHubFrameBytes : Nat := 1024 * 1024

def maxSessionPagePayloadBytes : Nat := maxHubFrameBytes - 256 * 1024

def maxJournalPagePayloadBytes : Nat := maxSessionPagePayloadBytes

/-- `SCAN_BATCH`. -/
def scanBatch : Nat := 256

/-- Filters over the audit journal.  All populated fields are conjoined;
`eventTypes` is a disjunction within that conjunction. -/
structure JournalFilter where
  subjectType : Option JournalSubjectType
  subjectId : Option String
  eventTypes : List JournalEventType
  sessionId : Option SessionId
  correlationId : Option String
  deriving DecidableEq, Repr

/-- Only positions greater than `after` are read. -/
structure JournalQuery where
  after : Nat
  limit : Nat
  filter : JournalFilter
  deriving DecidableEq, Repr

structure JournalPage where
  entries : List JournalEntry
  /-- The last journal position scanned, including filtered-out entries. -/
  cursor : Nat
  hasMore : Bool
  deriving DecidableEq, Repr

def matchesFilter (filter : JournalFilter) (entry : JournalEntry) : Bool :=
  (filter.subjectType.all fun subjectType => entry.subject.kind = subjectType) &&
  (filter.subjectId.all fun subjectId => entry.subject.id = subjectId) &&
  (filter.eventTypes.isEmpty || filter.eventTypes.contains entry.payload.eventType) &&
  (filter.sessionId.all fun sessionId =>
    entry.subject.kind = .session && entry.subject.id = sessionId.asStr) &&
  filter.correlationId.all fun correlationId => entry.correlationId = some correlationId

def JournalQuery.pageLimit (query : JournalQuery) : Nat := max 1 (min query.limit 500)

namespace Store

def journalEntriesAfter (store : Store) (position limit : Nat) : List JournalEntry :=
  ((store.journalEntries.filter fun entry => position < entry.position).insertionSort
    fun left right => left.position ≤ right.position).take limit

end Store

/-- The page under construction. -/
structure JournalScan where
  cursor : Nat
  payloadBytes : Nat
  entries : List JournalEntry

def JournalScan.page (scan : JournalScan) (hasMore : Bool) : JournalPage :=
  { entries := scan.entries, cursor := scan.cursor, hasMore }

def oversizedEntry : String := "Journal entry exceeds the Hub page limit"

section Pages

-- The length of an entry as JSON.
variable (entryBytes : JournalEntry → Nat)

/-- The payload of the page with one more entry, its separator included. -/
def JournalScan.bytesWith (scan : JournalScan) (entry : JournalEntry) : Nat :=
  scan.payloadBytes + (if scan.entries = [] then 0 else 1) + entryBytes entry

def JournalScan.take (scan : JournalScan) (entry : JournalEntry) : JournalScan :=
  { cursor := entry.position, payloadBytes := scan.bytesWith entryBytes entry
    entries := scan.entries ++ [entry] }

/-- Scans one batch.  It may end the page inside the batch. -/
def scanEntries (query : JournalQuery) (scan : JournalScan) :
    List JournalEntry → Except String (JournalScan ⊕ JournalPage)
  | [] => .ok (.inl scan)
  | entry :: rest =>
      if matchesFilter query.filter entry then
        -- A full page is scanned up to the next match, so that `hasMore`
        -- describes the filtered entries.
        if scan.entries.length = query.pageLimit then .ok (.inr (scan.page true))
        else if maxJournalPagePayloadBytes < entryBytes entry then .error oversizedEntry
        else if maxJournalPagePayloadBytes < scan.bytesWith entryBytes entry then
          .ok (.inr (scan.page true))
        else scanEntries query (scan.take entryBytes entry) rest
      else scanEntries query { scan with cursor := entry.position } rest

/-- A batch scanned to its end leaves the cursor at its last entry. -/
theorem scanEntries_cursor {query : JournalQuery} {scan scan' : JournalScan}
    {batch : List JournalEntry} (hscan : scanEntries entryBytes query scan batch = .ok (.inl scan')) :
    scan'.cursor = scan.cursor ∧ batch = [] ∨ ∃ entry ∈ batch, scan'.cursor = entry.position := by
  induction batch generalizing scan with
  | nil =>
      cases hscan
      exact .inl ⟨rfl, rfl⟩
  | cons entry rest ih =>
      have hlast : ∀ next : JournalScan, next.cursor = entry.position →
          scanEntries entryBytes query next rest = .ok (.inl scan') →
          ∃ other ∈ entry :: rest, scan'.cursor = other.position := by
        intro next hnext hscan
        rcases ih hscan with ⟨hcursor, -⟩ | ⟨other, hother, hcursor⟩
        · exact ⟨entry, List.mem_cons_self, hcursor.trans hnext⟩
        · exact ⟨other, List.mem_cons_of_mem _ hother, hcursor⟩
      right
      simp only [scanEntries] at hscan
      split at hscan
      · split at hscan
        · cases hscan
        · split at hscan
          · cases hscan
          · split at hscan
            · cases hscan
            · exact hlast _ rfl hscan
      · exact hlast _ rfl hscan

theorem mem_journalEntriesAfter {store : Store} {position limit : Nat} {entry : JournalEntry}
    (hentry : entry ∈ store.journalEntriesAfter position limit) :
    entry ∈ store.journalEntries ∧ position < entry.position := by
  have hmem := List.mem_of_mem_take hentry
  rw [List.mem_insertionSort] at hmem
  simpa using hmem

theorem beyond_shorter {items : List JournalEntry} {cursor : Nat} {entry : JournalEntry}
    (hentry : entry ∈ items) (hlt : cursor < entry.position) :
    (beyond (·.position) entry.position items).length <
      (beyond (·.position) cursor items).length := by
  rw [← beyond_beyond hlt.le]
  apply List.length_filter_lt_length_iff_exists.mpr
  exact ⟨entry, mem_beyond.mpr ⟨hentry, hlt⟩, by simp⟩

theorem scanEntries_shrinks {store : Store} {query : JournalQuery} {scan next : JournalScan}
    (hbatch : store.journalEntriesAfter scan.cursor scanBatch ≠ [])
    (hscan : scanEntries entryBytes query scan (store.journalEntriesAfter scan.cursor scanBatch) =
      .ok (.inl next)) :
    (beyond (·.position) next.cursor store.journalEntries).length <
      (beyond (·.position) scan.cursor store.journalEntries).length := by
  rcases scanEntries_cursor entryBytes hscan with ⟨-, hnil⟩ | ⟨entry, hentry, hcursor⟩
  · exact absurd hnil hbatch
  · obtain ⟨hmem, hlt⟩ := mem_journalEntriesAfter hentry
    rw [hcursor]
    exact beyond_shorter hmem hlt

/-- Scans batch after batch until the page is full or the journal ends. -/
def scanJournal (store : Store) (query : JournalQuery) (scan : JournalScan) :
    Except String JournalPage :=
  if hbatch : store.journalEntriesAfter scan.cursor scanBatch = [] then .ok (scan.page false)
  else match hscan : scanEntries entryBytes query scan
      (store.journalEntriesAfter scan.cursor scanBatch) with
    | .error error => .error error
    | .ok (.inr page) => .ok page
    | .ok (.inl next) =>
        if (store.journalEntriesAfter scan.cursor scanBatch).length = scanBatch then
          have := scanEntries_shrinks entryBytes hbatch hscan
          scanJournal store query next
        else .ok (next.page false)
termination_by (beyond (·.position) scan.cursor store.journalEntries).length

/-- Reads the audit journal after an exclusive journal cursor. -/
def journalEntriesPage (store : Store) (query : JournalQuery) : Except String JournalPage :=
  scanJournal entryBytes store query { cursor := query.after, payloadBytes := 0, entries := [] }

end Pages

/-- What the Hub did while a watch waited. -/
structure Wake where
  commands : List StoreOp
  moving : Bool

def hubMoving : String := "Hub is moving; try again after handoff"

/-- A watch reads again after each wake until a page holds an entry or the wakes
before its deadline are used up.  Filtered entries advance its cursor. -/
def pollJournalEntries (world : World) (entryBytes : JournalEntry → Nat) :
    Store → JournalQuery → Bool → List Wake → Store × Except String JournalPage
  | store, _, true, _ => (store, .error hubMoving)
  | store, query, false, [] => (store, journalEntriesPage entryBytes store query)
  | store, query, false, wake :: wakes =>
      match journalEntriesPage entryBytes store query with
      | .error error => (store, .error error)
      | .ok page =>
          if page.entries = [] then
            pollJournalEntries world entryBytes (Store.runFrom world store wake.commands)
              { query with after := page.cursor } wake.moving wakes
          else (store, .ok page)

/-! ## Pages are exact -/

section Exact

variable (entryBytes : JournalEntry → Nat)

/-- The entries a filter is looking for. -/
def Store.found (store : Store) (filter : JournalFilter) : List JournalEntry :=
  store.journalEntries.filter (matchesFilter filter)

/-- The encoded entries of a page and the separators between them. -/
def pagePayloadBytes (entries : List JournalEntry) : Nat :=
  (entries.map entryBytes).sum + (entries.length - 1)

/-- A cursor stands where it started or at an entry of the journal. -/
def Store.Reached (store : Store) (start cursor : Nat) : Prop :=
  cursor = start ∨ ∃ entry ∈ store.journalEntries, entry.position = cursor

/-- A page that answers its query within its limits. -/
structure SoundPage (store : Store) (query : JournalQuery) (page : JournalPage) : Prop where
  exact : ExactPage (·.position) (store.found query.filter) query.after page.entries page.cursor
    page.hasMore
  reached : store.Reached query.after page.cursor
  limited : page.entries.length ≤ query.pageLimit
  fits : pagePayloadBytes entryBytes page.entries ≤ maxJournalPagePayloadBytes

/-- The page under construction holds what matches up to its cursor. -/
structure SoundScan (store : Store) (query : JournalQuery) (scan : JournalScan) : Prop where
  advances : query.after ≤ scan.cursor
  reached : store.Reached query.after scan.cursor
  entries_eq : scan.entries =
    between (·.position) query.after scan.cursor (store.found query.filter)
  payload_eq : scan.payloadBytes = pagePayloadBytes entryBytes scan.entries
  limited : scan.entries.length ≤ query.pageLimit
  fits : scan.payloadBytes ≤ maxJournalPagePayloadBytes

variable {entryBytes} {store : Store} {query : JournalQuery} {scan : JournalScan}
variable {entry : JournalEntry}

theorem pagePayloadBytes_concat {entries : List JournalEntry} :
    pagePayloadBytes entryBytes (entries ++ [entry]) =
      pagePayloadBytes entryBytes entries + (if entries = [] then 0 else 1) + entryBytes entry := by
  rcases List.eq_nil_or_concat entries with rfl | ⟨earlier, last, rfl⟩
  · simp [pagePayloadBytes]
  · simp [pagePayloadBytes]
    omega

namespace SoundScan

theorem start (store : Store) (query : JournalQuery) :
    SoundScan entryBytes store query
      { cursor := query.after, payloadBytes := 0, entries := [] } where
  advances := le_rfl
  reached := .inl rfl
  entries_eq := between_self.symm
  payload_eq := rfl
  limited := Nat.zero_le _
  fits := Nat.zero_le _

theorem page (hscan : SoundScan entryBytes store query scan) {more : Bool}
    (hmore : more = true ↔ ∃ entry ∈ store.found query.filter, scan.cursor < entry.position)
    (hprogress : more = true → scan.entries ≠ []) :
    SoundPage entryBytes store query (scan.page more) where
  exact := ⟨hscan.advances, hscan.entries_eq, hmore, hprogress⟩
  reached := hscan.reached
  limited := hscan.limited
  fits := by
    have hpayload := hscan.payload_eq
    have hfits := hscan.fits
    change pagePayloadBytes entryBytes scan.entries ≤ _
    omega

/-- Nothing beyond the cursor is left to match. -/
theorem last (hscan : SoundScan entryBytes store query scan)
    (hnone : beyond (·.position) scan.cursor store.journalEntries = []) :
    SoundPage entryBytes store query (scan.page false) := by
  apply hscan.page
  · simp only [Bool.false_eq_true, false_iff]
    rintro ⟨entry, hentry, hlt⟩
    have hmem : entry ∈ beyond (·.position) scan.cursor store.journalEntries :=
      mem_beyond.mpr ⟨List.mem_of_mem_filter hentry, hlt⟩
    rw [hnone] at hmem
    exact List.not_mem_nil hmem
  · exact fun hmore => absurd hmore Bool.false_ne_true

theorem mem_of_beyond_cons {rest : List JournalEntry} {cursor : Nat}
    (hbeyond : beyond (·.position) cursor store.journalEntries = entry :: rest) :
    entry ∈ store.journalEntries := by
  have hmem : entry ∈ beyond (·.position) cursor store.journalEntries := by
    rw [hbeyond]
    exact List.mem_cons_self
  exact (mem_beyond.mp hmem).1

/-- The entries up to the next position: the next entry itself if it matches. -/
theorem next_eq (hscan : SoundScan entryBytes store query scan)
    (hordered : Ordered (·.position) store.journalEntries) {rest : List JournalEntry}
    (hbeyond : beyond (·.position) scan.cursor store.journalEntries = entry :: rest) :
    between (·.position) query.after entry.position (store.found query.filter) =
      scan.entries ++ [entry].filter (matchesFilter query.filter) := by
  obtain ⟨hlt, hbetween, -⟩ := hordered.beyond_cons hbeyond
  have hfound : Ordered (·.position) (store.found query.filter) := List.Pairwise.filter _ hordered
  rw [← hfound.between_append_between hscan.advances hlt.le, ← hscan.entries_eq, Store.found,
    between_filter, hbetween]

theorem skip (hscan : SoundScan entryBytes store query scan)
    (hordered : Ordered (·.position) store.journalEntries) {rest : List JournalEntry}
    (hbeyond : beyond (·.position) scan.cursor store.journalEntries = entry :: rest)
    (hmatch : matchesFilter query.filter entry = false) :
    SoundScan entryBytes store query { scan with cursor := entry.position } where
  advances := hscan.advances.trans (hordered.beyond_cons hbeyond).1.le
  reached := .inr ⟨entry, mem_of_beyond_cons hbeyond, rfl⟩
  entries_eq := by simp [hscan.next_eq hordered hbeyond, hmatch]
  payload_eq := hscan.payload_eq
  limited := hscan.limited
  fits := hscan.fits

theorem take (hscan : SoundScan entryBytes store query scan)
    (hordered : Ordered (·.position) store.journalEntries) {rest : List JournalEntry}
    (hbeyond : beyond (·.position) scan.cursor store.journalEntries = entry :: rest)
    (hmatch : matchesFilter query.filter entry = true)
    (hlimit : scan.entries.length ≠ query.pageLimit)
    (hfits : scan.bytesWith entryBytes entry ≤ maxJournalPagePayloadBytes) :
    SoundScan entryBytes store query (scan.take entryBytes entry) where
  advances := hscan.advances.trans (hordered.beyond_cons hbeyond).1.le
  reached := .inr ⟨entry, mem_of_beyond_cons hbeyond, rfl⟩
  entries_eq := by simp [JournalScan.take, hscan.next_eq hordered hbeyond, hmatch]
  payload_eq := by
    simp [JournalScan.take, JournalScan.bytesWith, pagePayloadBytes_concat, hscan.payload_eq]
  limited := by
    have hlimited := hscan.limited
    simp only [JournalScan.take, List.length_append, List.length_singleton]
    omega
  fits := hfits

end SoundScan

/-- A match after the cursor of the query is too large for any page. -/
def Oversized (entryBytes : JournalEntry → Nat) (store : Store) (query : JournalQuery) : Prop :=
  ∃ entry ∈ store.found query.filter,
    query.after < entry.position ∧ maxJournalPagePayloadBytes < entryBytes entry

/-- What a batch leaves: an exact page, an entry too large for any page, or a
sound scan in front of the entries behind the batch. -/
def ScanOutcome (entryBytes : JournalEntry → Nat) (store : Store) (query : JournalQuery)
    (rest : List JournalEntry) : Except String (JournalScan ⊕ JournalPage) → Prop
  | .error error => error = oversizedEntry ∧ Oversized entryBytes store query
  | .ok (.inl next) => SoundScan entryBytes store query next ∧
      beyond (·.position) next.cursor store.journalEntries = rest
  | .ok (.inr page) => SoundPage entryBytes store query page

theorem scanEntries_outcome (hordered : Ordered (·.position) store.journalEntries)
    (hscan : SoundScan entryBytes store query scan) {batch rest : List JournalEntry}
    (hbeyond : beyond (·.position) scan.cursor store.journalEntries = batch ++ rest) :
    ScanOutcome entryBytes store query rest (scanEntries entryBytes query scan batch) := by
  induction batch generalizing scan with
  | nil => exact ⟨hscan, hbeyond⟩
  | cons entry batch ih =>
      obtain ⟨hlt, -, hnext⟩ := hordered.beyond_cons hbeyond
      rw [scanEntries]
      by_cases hmatch : matchesFilter query.filter entry = true
      · have hfound : entry ∈ store.found query.filter :=
          List.mem_filter.mpr ⟨SoundScan.mem_of_beyond_cons hbeyond, hmatch⟩
        have hmore : (true = true ↔ ∃ other ∈ store.found query.filter,
            scan.cursor < other.position) := iff_of_true rfl ⟨entry, hfound, hlt⟩
        rw [if_pos hmatch]
        split
        next hlimit =>
          refine hscan.page hmore fun _ hempty => ?_
          rw [hempty, List.length_nil, JournalQuery.pageLimit] at hlimit
          omega
        next hlimit =>
          split
          next hlarge => exact ⟨rfl, entry, hfound, hscan.advances.trans_lt hlt, hlarge⟩
          next hsmall =>
            split
            next hfull =>
              refine hscan.page hmore fun _ hempty => ?_
              have hpayload := hscan.payload_eq
              simp only [JournalScan.bytesWith, hempty, pagePayloadBytes, List.map_nil,
                List.sum_nil, List.length_nil] at hfull hpayload
              simp at hfull
              omega
            next hroom =>
              exact ih (hscan.take hordered hbeyond hmatch hlimit (by omega)) hnext
      · rw [if_neg hmatch]
        exact ih (hscan.skip hordered hbeyond (by simpa using hmatch)) hnext

theorem journalEntriesAfter_eq (hordered : Ordered (·.position) store.journalEntries)
    (position limit : Nat) : store.journalEntriesAfter position limit =
      (beyond (·.position) position store.journalEntries).take limit := by
  have hsorted : (beyond (·.position) position store.journalEntries).Pairwise
      fun left right => left.position ≤ right.position :=
    hordered.beyond.imp fun h => h.le
  rw [Store.journalEntriesAfter]
  exact congrArg (List.take limit) hsorted.insertionSort_eq

def PageOutcome (entryBytes : JournalEntry → Nat) (store : Store) (query : JournalQuery) :
    Except String JournalPage → Prop
  | .error error => error = oversizedEntry ∧ Oversized entryBytes store query
  | .ok page => SoundPage entryBytes store query page

/-- What scanning the next batch leaves. -/
theorem scanBatch_outcome (hordered : Ordered (·.position) store.journalEntries)
    (hscan : SoundScan entryBytes store query scan) :
    ScanOutcome entryBytes store query
      ((beyond (·.position) scan.cursor store.journalEntries).drop scanBatch)
      (scanEntries entryBytes query scan (store.journalEntriesAfter scan.cursor scanBatch)) := by
  apply scanEntries_outcome hordered hscan
  rw [journalEntriesAfter_eq hordered, List.take_append_drop]

/-- A scan ends in an exact page, or meets an entry too large for any. -/
theorem scanJournal_outcome (hordered : Ordered (·.position) store.journalEntries)
    (hscan : SoundScan entryBytes store query scan) :
    PageOutcome entryBytes store query (scanJournal entryBytes store query scan) := by
  fun_induction scanJournal with
  | case1 scan hbatch =>
      apply hscan.last
      rw [journalEntriesAfter_eq hordered, List.take_eq_nil_iff] at hbatch
      simpa [scanBatch] using hbatch
  | case2 scan hbatch error herror =>
      have houtcome := scanBatch_outcome hordered hscan
      rw [herror] at houtcome
      exact houtcome
  | case3 scan hbatch page hpage =>
      have houtcome := scanBatch_outcome hordered hscan
      rw [hpage] at houtcome
      exact houtcome
  | case4 scan hbatch next hnext hfull hshrinks ih =>
      have houtcome := scanBatch_outcome hordered hscan
      rw [hnext] at houtcome
      exact ih houtcome.1
  | case5 scan hbatch next hnext hshort =>
      have houtcome := scanBatch_outcome hordered hscan
      rw [hnext] at houtcome
      apply houtcome.1.last
      rw [houtcome.2, List.drop_eq_nil_iff]
      rw [journalEntriesAfter_eq hordered, List.length_take] at hshort
      omega

theorem journalEntriesPage_outcome (entryBytes : JournalEntry → Nat)
    (hordered : Ordered (·.position) store.journalEntries) (query : JournalQuery) :
    PageOutcome entryBytes store query (journalEntriesPage entryBytes store query) :=
  scanJournal_outcome hordered (.start store query)

/-- A first match that is too large stops every page call before it. -/
theorem journalEntriesPage_blocked (hordered : Ordered (·.position) store.journalEntries)
    {rest : List JournalEntry}
    (hbeyond : beyond (·.position) query.after (store.found query.filter) = entry :: rest)
    (hlarge : maxJournalPagePayloadBytes < entryBytes entry) :
    journalEntriesPage entryBytes store query = .error oversizedEntry := by
  have houtcome := journalEntriesPage_outcome entryBytes hordered query
  cases hpage : journalEntriesPage entryBytes store query with
  | error error =>
      rw [hpage] at houtcome
      rw [houtcome.1]
  | ok page =>
      rw [hpage] at houtcome
      have hfound : Ordered (·.position) (store.found query.filter) :=
        List.Pairwise.filter _ hordered
      have hcut := hfound.between_append_beyond houtcome.exact.advances
      rw [← houtcome.exact.page_eq, hbeyond] at hcut
      exfalso
      cases hentries : page.entries with
      | nil =>
          -- An empty page would have to be the last one.
          rw [hentries, List.nil_append] at hcut
          have hmem : entry ∈ beyond (·.position) page.cursor (store.found query.filter) := by
            rw [hcut]
            exact List.mem_cons_self
          exact houtcome.exact.progress
            (houtcome.exact.more_iff.mpr ⟨entry, mem_beyond.mp hmem⟩) hentries
      | cons first others =>
          rw [hentries, List.cons_append] at hcut
          obtain ⟨rfl, -⟩ := List.cons.inj hcut
          have hfits := houtcome.fits
          rw [hentries, pagePayloadBytes, List.map_cons, List.sum_cons] at hfits
          omega

end Exact

/-! ## Pages of a growing journal -/

namespace Store

/-- A database grown from a new one, whose journal stands at 1, 2, …. -/
structure Numbered (world : World) (store : Store) : Prop where
  keyed : store.projection.Keyed
  journaled : Journaled world empty store

/-- The journal has only grown at its end. -/
def Extends (store store' : Store) : Prop :=
  store.lastPosition ≤ store'.lastPosition ∧
  ∃ entries, store'.journalEntries = store.journalEntries ++ entries ∧
    ∀ entry ∈ entries, store.lastPosition < entry.position

variable {world : World} {store store' : Store} {filter : JournalFilter}

theorem numbered_empty : Numbered world empty := ⟨Projection.keyed_empty, .refl empty⟩

theorem Extends.refl (store : Store) : Extends store store := ⟨le_rfl, [], by simp, by simp⟩

theorem Extends.trans {first second third : Store} (hfirst : Extends first second)
    (hsecond : Extends second third) : Extends first third := by
  obtain ⟨hle, entries, hjournal, hlater⟩ := hfirst
  obtain ⟨hle', entries', hjournal', hlater'⟩ := hsecond
  refine ⟨hle.trans hle', entries ++ entries', by rw [hjournal', hjournal, List.append_assoc], ?_⟩
  intro entry hentry
  rcases List.mem_append.mp hentry with hentry | hentry
  · exact hlater entry hentry
  · exact hle.trans_lt (hlater' entry hentry)

theorem Journaled.extends (hjournaled : Journaled world store store') : Extends store store' := by
  obtain ⟨entries, hjournal, hpositions, -⟩ := hjournaled
  refine ⟨?_, entries, hjournal, fun entry hentry => ?_⟩
  · rw [lastPosition_append hjournal hpositions]
    omega
  · have hposition : entry.position ∈ entries.map (·.position) := List.mem_map_of_mem hentry
    rw [hpositions, List.mem_range'_1] at hposition
    omega

namespace Numbered

theorem runFrom (hnumbered : Numbered world store) (ops : List StoreOp) :
    Numbered world (runFrom world store ops) where
  keyed := (runFrom_moves world hnumbered.keyed ops).keyed hnumbered.keyed
  journaled := hnumbered.journaled.trans (runFrom_journaled world hnumbered.keyed ops)

theorem positions (hnumbered : Numbered world store) :
    store.journalEntries.map (·.position) = List.range' 1 store.journalEntries.length := by
  obtain ⟨entries, hjournal, hpositions, -⟩ := hnumbered.journaled
  have hentries : store.journalEntries = entries := hjournal
  rw [hentries]
  exact hpositions

theorem position_pos (hnumbered : Numbered world store) {entry : JournalEntry}
    (hentry : entry ∈ store.journalEntries) : 0 < entry.position := by
  have hposition : entry.position ∈ store.journalEntries.map (·.position) :=
    List.mem_map_of_mem hentry
  rw [hnumbered.positions, List.mem_range'_1] at hposition
  omega

theorem ordered (hnumbered : Numbered world store) :
    Ordered (·.position) store.journalEntries := by
  have hsorted : (List.range' 1 store.journalEntries.length).Pairwise (· < ·) :=
    List.pairwise_lt_range'
  rw [← hnumbered.positions, List.pairwise_map] at hsorted
  exact hsorted

theorem le_lastPosition (hnumbered : Numbered world store) {entry : JournalEntry}
    (hentry : entry ∈ store.journalEntries) : entry.position ≤ store.lastPosition := by
  have hlast : store.lastPosition = store.journalEntries.length := by
    obtain ⟨entries, hjournal, hpositions, -⟩ := hnumbered.journaled
    have hlength := lastPosition_append hjournal hpositions
    rw [hlength, hjournal]
    simp [lastPosition, empty]
  have hposition : entry.position ∈ store.journalEntries.map (·.position) :=
    List.mem_map_of_mem hentry
  rw [hnumbered.positions, List.mem_range'_1] at hposition
  omega

end Numbered

theorem Reached.le_lastPosition {start cursor : Nat} (hreached : store.Reached start cursor)
    (hnumbered : Numbered world store) (hstart : start ≤ store.lastPosition) :
    cursor ≤ store.lastPosition := by
  rcases hreached with rfl | ⟨entry, hentry, rfl⟩
  · exact hstart
  · exact hnumbered.le_lastPosition hentry

theorem Extends.found (hextends : Extends store store') (filter : JournalFilter) :
    ∃ added, store'.found filter = store.found filter ++ added ∧
      ∀ entry ∈ added, store.lastPosition < entry.position := by
  obtain ⟨-, entries, hjournal, hlater⟩ := hextends
  refine ⟨entries.filter (matchesFilter filter), ?_, fun entry hentry => ?_⟩
  · rw [Store.found, hjournal, List.filter_append]
    rfl
  · exact hlater entry (List.mem_of_mem_filter hentry)

end Store

/-! ## Watches -/

section Watch

open Store

variable {world : World} {entryBytes : JournalEntry → Nat} {store store' : Store}
variable {query : JournalQuery}

theorem PageOutcome.of_empty {page : JournalPage} {result : Except String JournalPage}
    (hfirst : SoundPage entryBytes store query page) (hempty : page.entries = [])
    (hnumbered : Numbered world store) (hafter : query.after ≤ store.lastPosition)
    (hextends : Extends store store') (hnumbered' : Numbered world store')
    (houtcome : PageOutcome entryBytes store' { query with after := page.cursor } result) :
    PageOutcome entryBytes store' query result := by
  have hcursor : page.cursor ≤ store.lastPosition := hfirst.reached.le_lastPosition hnumbered hafter
  have hadvances : query.after ≤ page.cursor := hfirst.exact.advances
  obtain ⟨added, hfound, hlater⟩ := hextends.found query.filter
  cases result with
  | error error =>
      obtain ⟨herror, entry, hentry, hlt, hlarge⟩ := houtcome
      exact ⟨herror, entry, hentry, hadvances.trans_lt hlt, hlarge⟩
  | ok next =>
      refine ⟨?_, ?_, houtcome.limited, houtcome.fits⟩
      · have hexact := hfirst.exact
        rw [hempty] at hexact
        have hordered : Ordered (·.position) (store'.found query.filter) :=
          List.Pairwise.filter _ hnumbered'.ordered
        have hnext := houtcome.exact
        simp only [hfound] at hnext hordered ⊢
        exact hexact.after_empty (fun entry hentry => hcursor.trans_lt (hlater entry hentry))
          hordered hnext
      · rcases houtcome.reached with hsame | hreached
        · rcases hfirst.reached with hstart | ⟨entry, hentry, hposition⟩
          · exact .inl (hsame.trans hstart)
          · obtain ⟨-, entries, hjournal, -⟩ := hextends
            refine .inr ⟨entry, ?_, hposition.trans hsame.symm⟩
            rw [hjournal]
            exact List.mem_append_left _ hentry
        · exact .inr hreached

/-- A watch returns what one page call at its end would, or is turned away. -/
theorem pollJournalEntries_outcome (entryBytes : JournalEntry → Nat) (hnumbered : Numbered world store)
    (hafter : query.after ≤ store.lastPosition) (moving : Bool) (wakes : List Wake) :
    let polled := pollJournalEntries world entryBytes store query moving wakes
    Numbered world polled.1 ∧ Extends store polled.1 ∧
      (polled.2 = .error hubMoving ∨ PageOutcome entryBytes polled.1 query polled.2) := by
  intro polled
  induction wakes generalizing store query moving with
  | nil =>
      cases moving with
      | true => exact ⟨hnumbered, .refl store, .inl rfl⟩
      | false =>
          exact ⟨hnumbered, .refl store, .inr (journalEntriesPage_outcome entryBytes hnumbered.ordered query)⟩
  | cons wake wakes ih =>
      cases moving with
      | true => exact ⟨hnumbered, .refl store, .inl rfl⟩
      | false =>
          have houtcome : PageOutcome entryBytes store query
              (journalEntriesPage entryBytes store query) :=
            journalEntriesPage_outcome entryBytes hnumbered.ordered query
          cases hpage : journalEntriesPage entryBytes store query with
          | error error =>
              have hpolled : polled = (store, .error error) := by
                simp [polled, pollJournalEntries, hpage]
              rw [hpolled]
              exact ⟨hnumbered, .refl store, .inr (by rwa [hpage] at houtcome)⟩
          | ok page =>
              rw [hpage] at houtcome
              by_cases hempty : page.entries = []
              · have hwoken := hnumbered.runFrom wake.commands
                have hgrown : Extends store (runFrom world store wake.commands) :=
                  (runFrom_journaled world hnumbered.keyed wake.commands).extends
                have hcursor : JournalQuery.after { query with after := page.cursor } ≤
                    (runFrom world store wake.commands).lastPosition :=
                  (houtcome.reached.le_lastPosition hnumbered hafter).trans hgrown.1
                obtain ⟨hlast, hextends, hresult⟩ := ih hwoken hcursor wake.moving
                have hpolled : polled = pollJournalEntries world entryBytes
                    (runFrom world store wake.commands) { query with after := page.cursor }
                    wake.moving wakes := by
                  simp [polled, pollJournalEntries, hpage, hempty]
                rw [hpolled]
                have hwhole := hgrown.trans hextends
                refine ⟨hlast, hwhole, hresult.imp_right fun hresult => ?_⟩
                exact .of_empty houtcome hempty hnumbered hafter hwhole hlast hresult
              · have hpolled : polled = (store, .ok page) := by
                  simp [polled, pollJournalEntries, hpage, hempty]
                rw [hpolled]
                exact ⟨hnumbered, .refl store, .inr houtcome⟩

end Watch

/-! ## Readers -/

/-- A reader that follows the cursors of the pages it gets, beside the Store it
reads from. -/
structure JournalReader where
  store : Store
  cursor : Nat
  read : List JournalEntry

inductive JournalStep where
  | command (op : StoreOp)
  | page (limit : Nat)
  | poll (limit : Nat) (moving : Bool) (wakes : List Wake)

namespace JournalReader

variable (world : World) (entryBytes : JournalEntry → Nat) (filter : JournalFilter)

def initial : JournalReader := { store := Store.empty, cursor := 0, read := [] }

def query (reader : JournalReader) (limit : Nat) : JournalQuery :=
  { after := reader.cursor, limit, filter }

def adopt (reader : JournalReader) (store : Store) : Except String JournalPage → JournalReader
  | .ok page => { store, cursor := page.cursor, read := reader.read ++ page.entries }
  | .error _ => { reader with store }

def step (reader : JournalReader) : JournalStep → JournalReader
  | .command op => { reader with store := Store.step world reader.store op }
  | .page limit =>
      reader.adopt reader.store
        (journalEntriesPage entryBytes reader.store (reader.query filter limit))
  | .poll limit moving wakes =>
      let polled := pollJournalEntries world entryBytes reader.store (reader.query filter limit)
        moving wakes
      reader.adopt polled.1 polled.2

def after (steps : List JournalStep) : JournalReader :=
  steps.foldl (step world entryBytes filter) initial

/-! ## Following the cursors -/

open Store

/-- The reader has read what matches up to its cursor. -/
structure Sound (reader : JournalReader) : Prop where
  numbered : Numbered world reader.store
  cursor_le : reader.cursor ≤ reader.store.lastPosition
  read_eq : reader.read = between (·.position) 0 reader.cursor (reader.store.found filter)

variable {world entryBytes filter} {reader : JournalReader}

theorem sound_initial : Sound world filter initial where
  numbered := numbered_empty
  cursor_le := le_rfl
  read_eq := rfl

theorem Sound.ordered (hsound : Sound world filter reader) :
    Ordered (·.position) (reader.store.found filter) :=
  List.Pairwise.filter _ hsound.numbered.ordered

/-- Commands append behind the cursor. -/
theorem Sound.extend (hsound : Sound world filter reader) {store : Store}
    (hnumbered : Numbered world store) (hextends : Extends reader.store store) :
    Sound world filter { reader with store } where
  numbered := hnumbered
  cursor_le := hsound.cursor_le.trans hextends.1
  read_eq := by
    obtain ⟨added, hfound, hlater⟩ := hextends.found filter
    simp only [hfound]
    rw [between_append_of_lt fun entry hentry => hsound.cursor_le.trans_lt (hlater entry hentry)]
    exact hsound.read_eq

theorem Sound.adopt (hsound : Sound world filter reader) {limit : Nat} {page : JournalPage}
    (hpage : SoundPage entryBytes reader.store (reader.query filter limit) page) :
    Sound world filter (reader.adopt reader.store (.ok page)) where
  numbered := hsound.numbered
  cursor_le := hpage.reached.le_lastPosition hsound.numbered hsound.cursor_le
  read_eq := hpage.exact.collect hsound.ordered (Nat.zero_le _) hsound.read_eq

theorem Sound.step (hsound : Sound world filter reader) (step : JournalStep) :
    Sound world filter (reader.step world entryBytes filter step) := by
  cases step with
  | command op =>
      have hjournaled : Journaled world reader.store (Store.step world reader.store op) :=
        runFrom_journaled world hsound.numbered.keyed [op]
      exact hsound.extend (hsound.numbered.runFrom [op]) hjournaled.extends
  | page limit =>
      have houtcome : PageOutcome entryBytes reader.store (reader.query filter limit)
          (journalEntriesPage entryBytes reader.store (reader.query filter limit)) :=
        journalEntriesPage_outcome entryBytes hsound.numbered.ordered _
      rw [JournalReader.step]
      cases hpage : journalEntriesPage entryBytes reader.store (reader.query filter limit) with
      | error error => exact hsound
      | ok page =>
          rw [hpage] at houtcome
          exact hsound.adopt houtcome
  | poll limit moving wakes =>
      have hcursor : (reader.query filter limit).after ≤ reader.store.lastPosition :=
        hsound.cursor_le
      obtain ⟨hnumbered, hextends, hresult⟩ :=
        pollJournalEntries_outcome entryBytes hsound.numbered hcursor moving wakes
      have hlater := hsound.extend hnumbered hextends
      rw [JournalReader.step]
      cases hpage : (pollJournalEntries world entryBytes reader.store (reader.query filter limit)
          moving wakes).2 with
      | error error => exact hlater
      | ok page =>
          rw [hpage] at hresult
          exact hlater.adopt (hresult.resolve_left (by simp))

theorem sound_after (steps : List JournalStep) :
    Sound world filter (after world entryBytes filter steps) := by
  have hfold : ∀ reader, Sound world filter reader →
      Sound world filter (steps.foldl (JournalReader.step world entryBytes filter) reader) := by
    induction steps with
    | nil => exact fun _ hsound => hsound
    | cons step steps ih => exact fun reader hsound => ih _ (hsound.step step)
  exact hfold initial sound_initial

/-- Once nothing is left, everything has been read. -/
theorem Sound.read_all (hsound : Sound world filter reader)
    (hnone : beyond (·.position) reader.cursor (reader.store.found filter) = []) :
    reader.read = reader.store.found filter := by
  have hall : beyond (·.position) 0 (reader.store.found filter) = reader.store.found filter := by
    rw [beyond, List.filter_eq_self]
    intro entry hentry
    simpa using hsound.numbered.position_pos (List.mem_of_mem_filter hentry)
  have hcut := hsound.ordered.between_append_beyond (Nat.zero_le reader.cursor)
  rw [hnone, List.append_nil, hall] at hcut
  rw [hsound.read_eq, hcut]

/-- Where every match fits a page, each page call returns one. -/
theorem Sound.page_ok (hsound : Sound world filter reader)
    (hfits : ∀ entry ∈ reader.store.found filter, entryBytes entry ≤ maxJournalPagePayloadBytes)
    (limit : Nat) : ∃ page,
      journalEntriesPage entryBytes reader.store (reader.query filter limit) = .ok page ∧
      SoundPage entryBytes reader.store (reader.query filter limit) page := by
  have houtcome : PageOutcome entryBytes reader.store (reader.query filter limit)
      (journalEntriesPage entryBytes reader.store (reader.query filter limit)) :=
    journalEntriesPage_outcome entryBytes hsound.numbered.ordered _
  cases hpage : journalEntriesPage entryBytes reader.store (reader.query filter limit) with
  | ok page =>
      rw [hpage] at houtcome
      exact ⟨page, rfl, houtcome⟩
  | error error =>
      rw [hpage] at houtcome
      obtain ⟨-, entry, hentry, -, hlarge⟩ := houtcome
      exact absurd (hfits entry hentry) (by omega)

/-- As many pages as there are matches left read them all. -/
theorem Sound.drain (hsound : Sound world filter reader)
    (hfits : ∀ entry ∈ reader.store.found filter, entryBytes entry ≤ maxJournalPagePayloadBytes)
    (limits : List Nat)
    (henough : (beyond (·.position) reader.cursor (reader.store.found filter)).length ≤
      limits.length) :
    ((limits.map .page).foldl (JournalReader.step world entryBytes filter) reader).read =
      reader.store.found filter := by
  induction limits generalizing reader with
  | nil => exact hsound.read_all (List.length_eq_zero_iff.mp (Nat.le_zero.mp henough))
  | cons limit limits ih =>
      obtain ⟨page, hpage, hexact⟩ := hsound.page_ok hfits limit
      have hstep : reader.step world entryBytes filter (.page limit) =
          reader.adopt reader.store (.ok page) := by
        rw [JournalReader.step, hpage]
      have hremaining := hexact.exact.remaining hsound.ordered
      rw [List.map_cons, List.foldl_cons, hstep]
      apply ih (hsound.adopt hexact) hfits
      change (beyond (·.position) page.cursor (reader.store.found filter)).length ≤
        (beyond (·.position) reader.cursor (reader.store.found filter)).length - 1 at hremaining
      rw [List.length_cons] at henough
      have henough' := Nat.sub_le_of_le_add henough
      exact hremaining.trans henough'

/-- Journal paging is lossless.  In every run of commands, page calls and
watches the reader has read the matches up to its cursor, once each and in
order; what it reads next is exact; and where every match fits a page it reads
them all. -/
theorem journal_paging (world : World) (entryBytes : JournalEntry → Nat) (filter : JournalFilter)
    (steps : List JournalStep) :
    let reader := after world entryBytes filter steps
    let found := reader.store.found filter
    found.Pairwise (fun left right => left.position < right.position) ∧
    reader.read = found.filter (fun entry => entry.position ≤ reader.cursor) ∧
    (∀ limit page,
      journalEntriesPage entryBytes reader.store (reader.query filter limit) = .ok page →
        SoundPage entryBytes reader.store (reader.query filter limit) page) ∧
    (∀ limit moving wakes page,
      let polled := pollJournalEntries world entryBytes reader.store (reader.query filter limit)
        moving wakes
      polled.2 = .ok page → SoundPage entryBytes polled.1 (reader.query filter limit) page) ∧
    ((∀ entry ∈ found, entryBytes entry ≤ maxJournalPagePayloadBytes) →
      (∀ limit, ∃ page,
        journalEntriesPage entryBytes reader.store (reader.query filter limit) = .ok page) ∧
      ∀ limits : List Nat, found.length ≤ limits.length →
        (after world entryBytes filter (steps ++ limits.map .page)).read = found) := by
  intro reader found
  have hsound : Sound world filter reader := sound_after steps
  refine ⟨hsound.ordered, ?_, ?_, ?_, fun hfits => ⟨fun limit => ?_, fun limits henough => ?_⟩⟩
  · have hread : reader.read = between (·.position) 0 reader.cursor found := hsound.read_eq
    rw [hread]
    apply List.filter_congr
    intro entry hentry
    simp [hsound.numbered.position_pos (List.mem_of_mem_filter hentry)]
  · intro limit page hpage
    have houtcome := journalEntriesPage_outcome entryBytes hsound.numbered.ordered
      (reader.query filter limit)
    rw [hpage] at houtcome
    exact houtcome
  · intro limit moving wakes page polled hpage
    have hcursor : (reader.query filter limit).after ≤ reader.store.lastPosition :=
      hsound.cursor_le
    obtain ⟨-, -, hresult⟩ :=
      pollJournalEntries_outcome entryBytes hsound.numbered hcursor moving wakes
    change polled.2 = _ ∨ PageOutcome entryBytes polled.1 _ polled.2 at hresult
    rw [hpage] at hresult
    exact hresult.resolve_left (by simp)
  · obtain ⟨page, hpage, -⟩ := hsound.page_ok hfits limit
    exact ⟨page, hpage⟩
  · have hleft : (beyond (·.position) reader.cursor found).length ≤ limits.length :=
      (List.length_filter_le _ _).trans henough
    rw [after, List.foldl_append]
    exact hsound.drain hfits limits hleft

theorem foldl_commands (reader : JournalReader) (ops : List StoreOp) :
    (ops.map .command).foldl (JournalReader.step world entryBytes filter) reader =
      { reader with store := runFrom world reader.store ops } := by
  induction ops generalizing reader with
  | nil => rfl
  | cons op ops ih => exact ih _

/-- The reader of raw results. -/
def rawResults : JournalFilter :=
  { subjectType := none, subjectId := none, eventTypes := [.toolExecutionCompleted]
    sessionId := none, correlationId := none }

theorem found_completedCall (text : String) :
    (run World.numbered (completedCall text)).found rawResults = [completedEntry text] := by
  have hearlier : (run World.numbered startedCall).journalEntries.filter
      (matchesFilter rawResults) = [] := by
    decide +kernel
  have hmatch : matchesFilter rawResults (completedEntry text) = true := rfl
  rw [Store.found, completedCall_journal, List.filter_append, hearlier, List.nil_append,
    List.filter_cons_of_pos hmatch, List.filter_nil]

theorem page_of_large_result {text : String}
    (hlarge : maxJournalPagePayloadBytes < textBytes text) (limit : Nat) :
    journalEntriesPage JournalEntry.bytes (run World.numbered (completedCall text))
      { after := 0, limit, filter := rawResults } = .error oversizedEntry := by
  have hnumbered : Numbered World.numbered (run World.numbered (completedCall text)) :=
    numbered_empty.runFrom _
  have hfound := found_completedCall text
  have hmem : completedEntry text ∈ (run World.numbered (completedCall text)).journalEntries := by
    rw [completedCall_journal]
    exact List.mem_append_right _ (List.mem_singleton_self _)
  apply journalEntriesPage_blocked hnumbered.ordered ?_
    (hlarge.trans_le (textBytes_le_completedEntry text))
  · exact []
  · rw [hfound]
    simp [beyond, hnumbered.position_pos hmem]

theorem after_completedCall (text : String) :
    after World.numbered JournalEntry.bytes rawResults ((completedCall text).map .command) =
      { store := run World.numbered (completedCall text), cursor := 0, read := [] } :=
  foldl_commands initial (completedCall text)

theorem textBytes_replicate (length : Nat) :
    textBytes (String.ofList (List.replicate length 'x')) = length + 2 := by
  rw [textBytes, escapedBytes_replicate]

/-- The reader finds one entry and never gets a page. -/
theorem stopped_of_large_result {text : String}
    (hlarge : maxJournalPagePayloadBytes < textBytes text) :
    let reader := after World.numbered JournalEntry.bytes rawResults
      ((completedCall text).map .command)
    reader.store.found rawResults = [completedEntry text] ∧ reader.cursor = 0 ∧
    ∀ limit, journalEntriesPage JournalEntry.bytes reader.store (reader.query rawResults limit) =
      .error oversizedEntry := by
  have hreader := after_completedCall text
  have hfound := found_completedCall text
  have hstopped := page_of_large_result hlarge
  -- The run is closed; nothing below should evaluate it.
  generalize after World.numbered JournalEntry.bytes rawResults
    ((completedCall text).map .command) = reader at hreader ⊢
  generalize run World.numbered (completedCall text) = store at hreader hfound hstopped
  subst hreader
  exact ⟨hfound, rfl, hstopped⟩

/-- A tool returns a text of 768 KiB, which is journaled raw. -/
theorem paging_of_large_result :
    let text := String.ofList (List.replicate (768 * 1024) 'x')
    let reader := after World.numbered JournalEntry.bytes rawResults
      ((completedCall text).map .command)
    reader.store.found rawResults = [completedEntry text] ∧ reader.cursor = 0 ∧
    ∀ limit, journalEntriesPage JournalEntry.bytes reader.store (reader.query rawResults limit) =
      .error oversizedEntry := by
  apply stopped_of_large_result
  rw [textBytes_replicate]
  decide

end JournalReader

end Mews
