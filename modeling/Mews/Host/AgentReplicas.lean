import Mews.Core.Words
import Mews.Host.AgentDirectories
import Mews.Store.Aggregates
import Mews.Store.Changes

/-!
# The replica of an Agent on a Host

A Host keeps the definition of an Agent in a directory of its own.  A revision that comes
from the Hub is staged beside the directory and takes its place with two renames, between
which the resources of the machine change directories.  Where a step fails, what was done
is undone, so that the replica is the old one or the new one.
-/

namespace Mews

open Protocol

structure AgentReplica where
  revision : ℕ
  soul : String
  configToml : String
  deriving DecidableEq

def stagedName (slug unique : String) : String := "." ++ slug ++ ".sync-" ++ unique

def backupName (slug unique : String) : String := previousStem slug ++ unique

/-- The files of a revision. -/
def revisionFiles (revision : AgentRevision) : List (String × String) :=
  [("SOUL.md", revision.soul), ("agent.toml", revision.configToml),
    (".revision", toString revision.revision), (".agent-id", revision.agentId.asStr)]

namespace DiskAction

variable {E : Type}

def readAgent (slug : String) : DiskAction E (Option AgentReplica) := do
  if ← has (agentPath slug) then
    let text ← readFile (agentPath slug ++ [".revision"])
    match parseUsize (trimText text) with
    | none => Faulty.fail (.bail "invalid agent replica revision")
    | some revision =>
        let soul ← readFile (agentPath slug ++ ["SOUL.md"])
        let configToml ← readFile (agentPath slug ++ ["agent.toml"])
        pure (some { revision, soul, configToml })
  else pure none

/-- A directory with the files of the revision. -/
def stageAgent (staged : String) (revision : AgentRevision) : DiskAction E Unit := do
  createDir (agentPath staged)
  Faulty.each (revisionFiles revision) fun file => write (agentPath staged ++ [file.1]) file.2

/-- Puts what is there aside, and its resources into the staged directory. -/
def setAside (previous backup staged : Path) : DiskAction E Unit := do
  rename previous backup
  Faulty.handle (moveResources backup staged [] localResources) fun error => do
    Faulty.ignore (rename backup previous)
    Faulty.fail error

/-- Puts the staged directory in its place. -/
def putInPlace (staged directory previous backup : Path) (kept : Bool) : DiskAction E Unit :=
  Faulty.handle (rename staged directory) fun error => do
    if kept then
      Faulty.ignore (moveResources staged backup [] localResources)
      Faulty.ignore (rename backup previous)
    Faulty.fail error

def swapAgent (unique slug observed : String) (revision : AgentRevision) :
    DiskAction E Unit := do
  createDirAll ["agents"]
  stageAgent (stagedName slug unique) revision
  let staged := agentPath (stagedName slug unique)
  let backup := agentPath (backupName observed unique)
  let kept ← has (agentPath observed)
  if kept then setAside (agentPath observed) backup staged
  putInPlace staged (agentPath slug) (agentPath observed) backup kept

/-- `unique` is the part of the new names that no other has. -/
def materializeAgent (unique : String) (agent : Agent) (revision : AgentRevision)
    (expected : Option AgentReplica) (previousSlug : Option String) : DiskAction E Unit := do
  let observed := previousSlug.getD agent.slug
  if revision.agentId ≠ agent.id ∨ revision.revision ≠ agent.currentRevision then
    Faulty.fail (.bail "agent revision does not match agent")
  else if (← readAgent observed) ≠ expected then
    Faulty.fail
      (.bail "agent replica changed while synchronizing; local files were left untouched")
  else if previousSlug.isSome && (← has (agentPath agent.slug)) then
    Faulty.fail
      (.bail "renamed agent destination already exists; local files were left untouched")
  else if expected = some ⟨revision.revision, revision.soul, revision.configToml⟩ ∧
      previousSlug = none then
    pure ()
  else do
    swapAgent unique agent.slug observed revision
    retainPrevious observed

end DiskAction

/-! ## What is left of a synchronisation -/

/-- What the disk shows of the directories. -/
def Disk.shelf (disk : Disk) : Shelf := fun name rest => disk.get (agentPath name ++ rest)

/-- What is read of a directory. -/
def Disk.replica (disk : Disk) (slug : String) : Option AgentReplica :=
  match disk.get (agentPath slug ++ [".revision"]), disk.get (agentPath slug ++ ["SOUL.md"]),
    disk.get (agentPath slug ++ ["agent.toml"]) with
  | some (.file text), some (.file soul), some (.file configToml) =>
      (parseUsize (trimText text)).map fun revision => { revision, soul, configToml }
  | _, _, _ => none

/-- The nodes of a directory with these files. -/
def fileNodes (files : List (String × String)) : Path → Option Node
  | [] => some .dir
  | [name] => (files.lookup name).map .file
  | _ => none

def revisionNodes (revision : AgentRevision) : Path → Option Node :=
  fileNodes (revisionFiles revision)

/-- One directory has these nodes. -/
def Shelf.fill (shelf : Shelf) (folder : String) (nodes : Path → Option Node) : Shelf :=
  fun name => if name = folder then nodes else shelf name

/-- Names that no Agent has. -/
def Hidden (name : String) : Prop := name.toList.head? = some '.'

/-- Every node above a node is a directory. -/
def Disk.IsTree (disk : Disk) : Prop :=
  ∀ path rest, rest ≠ [] → (disk.get (path ++ rest)).isSome → disk.isDir path = true

theorem Disk.IsTree.of_rows {disk : Disk} (hrows : ∀ row ∈ disk.nodes, ∀ path ∈ row.1.inits,
    path ≠ row.1 → disk.isDir path = true) : disk.IsTree := by
  intro path rest hrest hthere
  obtain ⟨row, hrow, hkey⟩ := List.mem_map.mp (mem_keys_iff_lookup.mpr hthere)
  apply hrows row hrow path
  · rw [hkey, List.mem_inits]
    exact List.prefix_append path rest
  · intro hsame
    rw [hkey] at hsame
    exact hrest (List.append_right_eq_self.mp hsame.symm)

/-- The directories of the Agents are as they were. -/
def SameAgents (disk after : Disk) : Prop :=
  ∀ name, ¬ Hidden name → ∀ rest,
    after.get (agentPath name ++ rest) = disk.get (agentPath name ++ rest)

/-- The replica is that of the revision, with the resources that were there. -/
structure Replaced (disk : Disk) (slug observed : String) (revision : AgentRevision)
    (after : Disk) : Prop where
  replica : ∀ rest, after.get (agentPath slug ++ rest) =
    if Shelf.Among localResources rest then disk.get (agentPath observed ++ rest)
    else revisionNodes revision rest
  gone : observed ≠ slug → ∀ rest, after.get (agentPath observed ++ rest) = none
  others : ∀ name, ¬ Hidden name → name ≠ slug → name ≠ observed → ∀ rest,
    after.get (agentPath name ++ rest) = disk.get (agentPath name ++ rest)

/-- An older copy cannot be removed. -/
def KeepsStale (fault : Option (Fault DiskStep Wreck)) (disk : Disk) (observed : String) : Prop :=
  Hits fault (.readDir ["agents"]) ∨
    ∃ name, isPrevious observed name = true ∧
      (Hits fault (.removeDirAll (agentPath name)) ∨
        ∃ node, disk.get (agentPath name) = some node ∧ node ≠ .dir)

section Names

variable {slug observed unique name : String}

theorem hidden_stagedName (slug unique : String) : Hidden (stagedName slug unique) := by
  simp [Hidden, stagedName, String.toList_append]

theorem hidden_of_isPrevious (hprevious : isPrevious slug name = true) : Hidden name := by
  rw [isPrevious, List.isPrefixOf_iff_prefix] at hprevious
  obtain ⟨rest, hrest⟩ := hprevious
  rw [Hidden, ← hrest]
  simp [previousStem, String.toList_append]

theorem isPrevious_backupName : isPrevious slug (backupName slug unique) = true := by
  rw [isPrevious, List.isPrefixOf_iff_prefix, backupName, String.toList_append]
  exact List.prefix_append _ _

theorem hidden_backupName (slug unique : String) : Hidden (backupName slug unique) :=
  hidden_of_isPrevious isPrevious_backupName

theorem mem_intercalate {char separator : Char} {parts : List (List Char)}
    (hchar : char ∈ [separator].intercalate parts) :
    char = separator ∨ ∃ part ∈ parts, char ∈ part := by
  rw [List.intercalate, List.mem_flatten] at hchar
  obtain ⟨part, hpart, hchar⟩ := hchar
  induction parts with
  | nil => cases hpart
  | cons first parts ih =>
      cases parts with
      | nil =>
          rw [List.mem_singleton.mp hpart] at hchar
          exact Or.inr ⟨first, List.mem_cons_self, hchar⟩
      | cons second parts =>
          rw [List.intersperse_cons_cons, List.mem_cons, List.mem_cons] at hpart
          rcases hpart with rfl | rfl | hpart
          · exact Or.inr ⟨part, List.mem_cons_self, hchar⟩
          · exact Or.inl (List.mem_singleton.mp hchar)
          · rcases ih hpart with hsame | ⟨other, hother, hmem⟩
            · exact Or.inl hsame
            · exact Or.inr ⟨other, List.mem_cons_of_mem first hother, hmem⟩

theorem dot_not_mem_of_validateSlug (hslug : validateSlug slug = .ok ()) : '.' ∉ slug.toList := by
  intro hdot
  rw [validateSlug, demand_eq_ok] at hslug
  obtain ⟨-, -, hparts⟩ := hslug
  have hjoined : ['-'].intercalate (slug.toList.splitOn '-') = slug.toList :=
    List.intercalate_splitOn '-'
  rw [← hjoined] at hdot
  rcases mem_intercalate hdot with hsame | ⟨part, hpart, hmem⟩
  · exact absurd hsame (by decide)
  · have hall := List.all_eq_true.mp (hparts part hpart).2 '.' hmem
    exact absurd hall (by decide)

theorem not_hidden_of_validateSlug (hslug : validateSlug slug = .ok ()) : ¬ Hidden slug := by
  intro hhidden
  exact dot_not_mem_of_validateSlug hslug (List.mem_of_mem_head? hhidden)

/-- The staged directory is not a copy that is kept. -/
theorem stagedName_ne_backupName (hslug : '.' ∉ slug.toList) (hobserved : '.' ∉ observed.toList) :
    stagedName slug unique ≠ backupName observed unique := by
  intro hsame
  have hlists := congrArg String.toList hsame
  simp only [stagedName, backupName, previousStem, String.toList_append,
    List.append_assoc] at hlists
  have hrest := List.append_cancel_left hlists
  have hcut (chars rest : List Char) (hchars : '.' ∉ chars) :
      (chars ++ '.' :: rest).takeWhile (· != '.') = chars := by
    rw [List.takeWhile_append_of_pos]
    · simp
    · intro char hchar
      rw [bne_iff_ne]
      rintro rfl
      exact hchars hchar
  have hslugs : slug.toList = observed.toList := by
    have hcuts := congrArg (List.takeWhile (· != '.')) hrest
    exact (hcut _ ("sync-".toList ++ unique.toList) hslug).symm.trans
      (hcuts.trans (hcut _ ("previous-".toList ++ unique.toList) hobserved))
  rw [hslugs, List.append_cancel_left_eq] at hrest
  have hsecond := congrArg (fun chars : List Char => chars[1]?) hrest
  exact absurd hsecond (by simp)

end Names

section Staging

variable {E : Type} {disk : Disk} {shelf : Shelf} {fault : Option (Fault DiskStep Wreck)}
  {slug observed staged backup name text : String} {files written : List (String × String)}
  {revision : AgentRevision}

theorem ensures_readFile {path : Path} :
    Faulty.ensures (DiskAction.readFile path : DiskAction E String) ⟨disk, fault⟩
      (fun text after => after = ⟨disk, fault⟩ ∧ disk.get path = some (.file text))
      (fun _ after => after.state = disk) fun after => after.state = disk := by
  unfold DiskAction.readFile DiskAction.atomic
  apply ensures_diskStep
  · exact fun _ _ => ⟨rfl, rfl⟩
  · exact fun _ _ => rfl
  · intro _ value state hread
    split at hread
    · rename_i text hget
      cases hread
      exact ⟨rfl, hget⟩
    · cases hread

/-- Reading changes nothing, and what is read is there. -/
theorem ensures_readAgent :
    Faulty.ensures (DiskAction.readAgent slug : DiskAction E (Option AgentReplica)) ⟨disk, fault⟩
      (fun replica after => after = ⟨disk, fault⟩ ∧
        (replica = none ∧ disk.has (agentPath slug) = false ∨
          replica.isSome ∧ replica = disk.replica slug))
      (fun _ after => after.state = disk) fun after => after.state = disk := by
  rw [DiskAction.readAgent]
  simp only [DiskAction.has, Faulty.ensures_bind, Faulty.ensures_reads]
  by_cases hhas : disk.has (agentPath slug) = true
  · rw [if_pos hhas, Faulty.ensures_bind]
    apply Faulty.ensures_mono (ensures_readFile)
    · rintro text _ ⟨rfl, hrevision⟩
      cases hnumber : parseUsize (trimText text) with
      | none => rfl
      | some number =>
          simp only [Faulty.ensures_bind, Faulty.ensures_pure]
          apply Faulty.ensures_mono (ensures_readFile)
          · rintro soul _ ⟨rfl, hsoul⟩
            apply Faulty.ensures_mono (ensures_readFile)
            · rintro configToml _ ⟨rfl, hconfig⟩
              refine ⟨rfl, Or.inr ⟨rfl, ?_⟩⟩
              simp [Disk.replica, hrevision, hsoul, hconfig, hnumber]
            · exact fun _ _ hstate => hstate
            · exact fun _ hstate => hstate
          · exact fun _ _ hstate => hstate
          · exact fun _ hstate => hstate
    · exact fun _ _ hstate => hstate
    · exact fun _ hstate => hstate
  · rw [if_neg hhas]
    exact ⟨rfl, Or.inl ⟨rfl, Bool.not_eq_true _ ▸ hhas⟩⟩

theorem fileNodes_reverse_revisionFiles :
    fileNodes (revisionFiles revision).reverse = revisionNodes revision := by
  funext rest
  rcases rest with _ | ⟨name, _ | ⟨later, rest⟩⟩
  · rfl
  · simp only [revisionNodes, fileNodes, revisionFiles, List.reverse_cons, List.reverse_nil,
      List.nil_append, List.cons_append, lookup_cons_eq, List.lookup_nil]
    split_ifs with hid hrevision hconfig hsoul
    all_goals simp_all
  · rfl

theorem Shelf.place_fill :
    (shelf.fill staged (fileNodes written)).place staged [name] (.file text) =
      shelf.fill staged (fileNodes ((name, text) :: written)) := by
  funext folder rest
  simp only [Shelf.place, Shelf.fill]
  by_cases hfolder : folder = staged
  · rcases rest with _ | ⟨first, _ | ⟨later, rest⟩⟩
    · simp [hfolder, fileNodes]
    · by_cases hname : first = name
      · simp [hfolder, hname, fileNodes]
      · simp [hfolder, hname, fileNodes, lookup_cons_eq]
    · simp [hfolder, fileNodes]
  · simp [hfolder]

/-- The files are in the staged directory, or only it has changed. -/
theorem ensures_writeFiles
    (hshows : disk.Shows (shelf.fill staged (fileNodes written))) :
    Faulty.ensures (Faulty.each files fun file =>
        DiskAction.write (agentPath staged ++ [file.1]) file.2 : DiskAction E Unit) ⟨disk, fault⟩
      (fun _ => Goes fault (shelf.fill staged (fileNodes (files.reverse ++ written))))
      (fun _ after => ∃ nodes, after.state.Shows (shelf.fill staged nodes))
      fun after => ∃ nodes, after.state.Shows (shelf.fill staged nodes) := by
  induction files generalizing disk fault written with
  | nil => exact ⟨hshows, rfl⟩
  | cons file files ih =>
      obtain ⟨name, text⟩ := file
      have hfolder : disk.isDir (agentPath staged ++ [name]).dropLast = true := by
        rw [List.dropLast_concat, Disk.isDir, hshows.get]
        simp [Shelf.fill, fileNodes]
      have hfile : disk.get (agentPath staged ++ [name]) ≠ some .dir := by
        rw [hshows.under]
        simp [Shelf.fill, fileNodes]
      rw [Faulty.each, Faulty.ensures_andThen]
      unfold DiskAction.write
      apply ensures_diskStep
      · intro wreck _
        rw [and_self]
        cases wreck.written with
        | none => exact ⟨_, hshows⟩
        | some spoilt =>
            dsimp only
            rw [if_neg hfile]
            have hput : (disk.put (agentPath staged ++ [name]) (.file spoilt)).Shows _ := hshows.put
            rw [Shelf.place_fill] at hput
            exact ⟨_, hput⟩
      · intro _ hrefused
        rw [if_pos ⟨hfolder, hfile⟩] at hrefused
        cases hrefused
      · intro _ value state hwritten
        rw [if_pos ⟨hfolder, hfile⟩] at hwritten
        cases hwritten
        have hput : (disk.put (agentPath staged ++ [name]) (.file text)).Shows _ := hshows.put
        rw [Shelf.place_fill] at hput
        rw [List.reverse_cons, List.append_assoc, List.singleton_append]
        exact ih hput

/-- A directory with the files of the revision is staged, or only it has changed. -/
theorem ensures_stageAgent (hshows : disk.Shows shelf)
    (hnew : ∀ rest, shelf staged rest = none) :
    Faulty.ensures (DiskAction.stageAgent staged revision : DiskAction E Unit) ⟨disk, fault⟩
      (fun _ => Goes fault (shelf.fill staged (revisionNodes revision)))
      (fun _ after => ∃ nodes, after.state.Shows (shelf.fill staged nodes))
      fun after => ∃ nodes, after.state.Shows (shelf.fill staged nodes) := by
  have hfill : shelf.fill staged (shelf staged) = shelf := by
    funext folder
    simp only [Shelf.fill]
    by_cases hfolder : folder = staged
    · simp [hfolder]
    · simp [hfolder]
  have hadmits : disk.isDir (agentPath staged).dropLast = true ∧
      disk.get (agentPath staged) = none := by
    refine ⟨hshows.isDir_agents, ?_⟩
    rw [hshows.get, hnew]
  rw [DiskAction.stageAgent, Faulty.ensures_bind]
  unfold DiskAction.createDir DiskAction.atomic
  apply ensures_diskStep
  · intro _ _
    rw [and_self]
    refine ⟨shelf staged, ?_⟩
    rw [hfill]
    exact hshows
  · intro _ hrefused
    rw [if_pos hadmits] at hrefused
    cases hrefused
  · intro _ value state hcreated
    rw [if_pos hadmits] at hcreated
    cases hcreated
    have hput : (disk.put (agentPath staged ++ []) .dir).Shows _ := hshows.put
    have hplace : shelf.place staged [] .dir = shelf.fill staged (fileNodes []) := by
      funext folder rest
      simp only [Shelf.place, Shelf.fill]
      by_cases hfolder : folder = staged
      · rcases rest with _ | ⟨first, _ | ⟨later, rest⟩⟩
        · simp [hfolder, fileNodes]
        · simp [hfolder, fileNodes, hnew]
        · simp [hfolder, fileNodes, hnew]
      · simp [hfolder]
    rw [List.append_nil, hplace] at hput
    apply Faulty.ensures_mono (ensures_writeFiles hput)
    · intro _ after hafter
      rw [List.append_nil, fileNodes_reverse_revisionFiles] at hafter
      exact hafter
    · exact fun _ _ hspoils => hspoils
    · exact fun _ hspoils => hspoils

end Staging

/-- The staged directory is ready, and nothing has the name of the copy. -/
structure Laid (shelf : Shelf) (observed staged backup : String) : Prop where
  unused : ∀ rest, shelf backup rest = none
  source : shelf observed [] = some .dir
  tree : ∀ name, shelf observed [name] = none → ∀ rest, [name] <+: rest →
    shelf observed rest = none
  folder : shelf staged [] = some .dir
  flat : ∀ name, shelf staged [name] = none → ∀ rest, [name] <+: rest → shelf staged rest = none
  empty : ∀ rest, Shelf.Among localResources rest → shelf staged rest = none
  kept : observed ≠ backup
  beside : backup ≠ staged
  other : observed ≠ staged

/-- What was there is aside, and its resources are in the staged directory. -/
def Shelf.aside (shelf : Shelf) (observed staged backup : String) : Shelf :=
  (shelf.relocate observed backup).carry backup staged localResources

section Swapping

variable {E : Type} {disk : Disk} {shelf : Shelf} {fault : Option (Fault DiskStep Wreck)}
  {slug observed staged backup : String} {revision : AgentRevision}

theorem ensures_createAgents :
    Faulty.ensures (DiskAction.createDirAll ["agents"] : DiskAction E Unit) ⟨disk, fault⟩
      (fun _ => Goes fault disk.shelf) (fun _ after => after.state.shelf = disk.shelf)
      fun after => after.state.shelf = disk.shelf := by
  have hinits : List.inits ["agents"] = [[], ["agents"]] := rfl
  have hroot : ¬ ¬ disk.isDir [] = true := by simp [Disk.isDir]
  rw [DiskAction.createDirAll, hinits, Faulty.each, Faulty.ensures_andThen, Faulty.each,
    Faulty.each]
  simp only [Faulty.ensures_bind, Faulty.ensures_reads]
  rw [if_neg hroot, Faulty.ensures_pure, Faulty.ensures_andThen, Faulty.ensures_bind,
    Faulty.ensures_reads]
  by_cases hagents : disk.isDir ["agents"] = true
  · rw [if_neg (not_not.mpr hagents), Faulty.ensures_pure, Faulty.ensures_ret]
    refine ⟨⟨?_, fun _ _ => rfl⟩, rfl⟩
    simpa [Disk.isDir] using hagents
  · rw [if_pos hagents]
    unfold DiskAction.createDir DiskAction.atomic
    apply ensures_diskStep
    · exact fun _ _ => ⟨rfl, rfl⟩
    · exact fun _ _ => rfl
    · intro _ value state hcreated
      split at hcreated
      · cases hcreated
        refine ⟨⟨?_, ?_⟩, rfl⟩
        · rw [Disk.get_put, if_pos rfl]
        · intro name rest
          rw [Disk.get_put, if_neg (agentPath_append_ne name rest), Disk.shelf]
      · cases hcreated

theorem Shelf.relocate_target {source target : String} (rest : Path) :
    shelf.relocate source target target rest = shelf source rest := by
  simp [Shelf.relocate]

/-- A directory that is not staged keeps its nodes. -/
theorem Shelf.aside_apart {name : String} (hbackup : name ≠ backup) (hstaged : name ≠ staged)
    (rest : Path) :
    shelf.aside observed staged backup name rest =
      if name = observed then none else shelf name rest := by
  simp only [Shelf.aside, Shelf.carry, if_neg hbackup, if_neg hstaged, ite_self, Shelf.relocate]
  split_ifs
  · rfl
  · rfl

section Aside

variable (hlaid : Laid shelf observed staged backup)
include hlaid

theorem Laid.relocate_staged (rest : Path) :
    shelf.relocate observed backup staged rest = shelf staged rest := by
  simp [Shelf.relocate, hlaid.beside.symm, hlaid.other.symm]

theorem Laid.aside_staged (rest : Path) : shelf.aside observed staged backup staged rest =
    if Shelf.Among localResources rest then shelf observed rest else shelf staged rest := by
  simp only [Shelf.aside, Shelf.carry, Shelf.relocate_target, hlaid.relocate_staged, if_true]

theorem Laid.aside_backup (rest : Path) : shelf.aside observed staged backup backup rest =
    if Shelf.Among localResources rest then none else shelf observed rest := by
  simp only [Shelf.aside, Shelf.carry, Shelf.relocate_target, if_neg hlaid.beside, if_true]

/-- The copy takes its old name again. -/
theorem Laid.ensures_return {disk : Disk}
    (hshows : disk.Shows (shelf.relocate observed backup)) :
    Faulty.ensures (DiskAction.rename (agentPath backup) (agentPath observed) : DiskAction E Unit)
      ⟨disk, none⟩ (fun _ => Goes none shelf) (fun _ _ => False) fun _ => False := by
  have hfree : (shelf.relocate observed backup) observed [] = none := by
    simp [Shelf.relocate, hlaid.kept]
  have hthere : ((shelf.relocate observed backup) backup []).isSome := by
    rw [Shelf.relocate_target, hlaid.source]
    rfl
  apply Faulty.ensures_mono
    (ensures_relocate hshows hlaid.kept.symm hthere hfree)
  · intro _ after hafter
    rw [Shelf.relocate_relocate hlaid.kept hlaid.unused] at hafter
    exact hafter
  · intro _ after hafter
    exact absurd hafter.struck (by simp)
  · intro after hafter
    exact absurd hafter.struck (by simp)

/-- The resources are in the staged directory and the rest is set aside, or nothing has
changed. -/
theorem Laid.ensures_setAside (hshows : disk.Shows shelf) :
    Faulty.ensures (DiskAction.setAside (agentPath observed) (agentPath backup)
        (agentPath staged) : DiskAction E Unit) ⟨disk, fault⟩
      (fun _ => Goes fault (shelf.aside observed staged backup))
      (fun _ => Misses fault shelf)
      fun after => after.state.Shows shelf ∨
        ∃ part, after.state.Shows ((shelf.relocate observed backup).carry backup staged part) := by
  have hthere : (shelf observed []).isSome := by
    rw [hlaid.source]
    rfl
  rw [DiskAction.setAside, Faulty.ensures_bind]
  apply Faulty.ensures_mono
    (ensures_relocate hshows hlaid.kept hthere (hlaid.unused []))
  · intro _ reached hgoes
    obtain ⟨reachedDisk, reachedFault⟩ := reached
    obtain ⟨hreached, rfl⟩ := hgoes
    rw [Faulty.ensures_handle]
    apply Faulty.ensures_mono (ensures_moveLocal hreached hlaid.beside ?_ ?_ ?_ ?_)
    · exact fun _ _ hafter => hafter
    · intro _ after hafter
      obtain ⟨afterDisk, afterFault⟩ := after
      obtain ⟨hundone, rfl, hstruck⟩ := hafter
      rw [Faulty.ensures_bind, Faulty.ensures_ignore]
      apply Faulty.ensures_mono (hlaid.ensures_return hundone)
      · intro _ final hfinal
        exact ⟨hfinal.shows, hfinal.fault_eq, hstruck⟩
      · exact fun _ _ hfalse => hfalse.elim
      · exact fun _ hfalse => hfalse.elim
    · exact fun _ hpart => Or.inr hpart.2
    · rw [Shelf.relocate_target, hlaid.source]
    · rw [hlaid.relocate_staged, hlaid.folder]
    · intro name hname rest hrest
      rw [hlaid.relocate_staged]
      exact hlaid.empty rest ((among_of_begins hrest).mpr hname)
    · intro name hname rest hrest
      rw [Shelf.relocate_target] at hname ⊢
      exact hlaid.tree name hname rest hrest
  · exact fun _ _ hmisses => hmisses
  · exact fun _ hmisses => Or.inl hmisses.shows

/-- All that was set aside comes back. -/
theorem Laid.ensures_undo {disk : Disk} {error : DiskError E}
    {done : Unit → DiskDrive → Prop} (hshows : disk.Shows (shelf.aside observed staged backup)) :
    Faulty.ensures (do
        Faulty.ignore (DiskAction.moveResources (agentPath staged) (agentPath backup) []
          localResources)
        Faulty.ignore (DiskAction.rename (agentPath backup) (agentPath observed))
        Faulty.fail error : DiskAction E Unit) ⟨disk, none⟩ done
      (fun _ => Goes none shelf) fun _ => False := by
  have hroot : ¬ Shelf.Among localResources [] := not_among_nil
  rw [Faulty.ensures_bind, Faulty.ensures_ignore]
  apply Faulty.ensures_mono (ensures_moveLocal hshows hlaid.beside.symm ?_ ?_ ?_ ?_)
  · intro _ reached hgoes
    obtain ⟨reachedDisk, reachedFault⟩ := reached
    obtain ⟨hreached, rfl⟩ := hgoes
    have hempty (rest : Path) (hamong : Shelf.Among localResources rest) :
        shelf.relocate observed backup staged rest = none := by
      rw [hlaid.relocate_staged, hlaid.empty rest hamong]
    rw [Shelf.aside, Shelf.carry_carry hlaid.beside hempty] at hreached
    rw [Faulty.ensures_bind, Faulty.ensures_ignore]
    apply Faulty.ensures_mono (hlaid.ensures_return hreached)
    · exact fun _ _ hgoes => hgoes
    · exact fun _ _ hfalse => hfalse.elim
    · exact fun _ hfalse => hfalse
  · intro _ after hafter
    exact absurd hafter.struck (by simp)
  · intro after hafter
    exact absurd hafter.1 (by simp)
  · rw [hlaid.aside_staged, if_neg hroot, hlaid.folder]
  · rw [hlaid.aside_backup, if_neg hroot, hlaid.source]
  · intro name hname rest hrest
    rw [hlaid.aside_backup, if_pos ((among_of_begins hrest).mpr hname)]
  · intro name hname rest hrest
    rw [hlaid.aside_staged] at hname ⊢
    by_cases hlocal : name ∈ localResources
    · rw [if_pos (among_singleton.mpr hlocal)] at hname
      rw [if_pos ((among_of_begins hrest).mpr hlocal)]
      exact hlaid.tree name hname rest hrest
    · rw [if_neg (mt among_singleton.mp hlocal)] at hname
      rw [if_neg (mt (among_of_begins hrest).mp hlocal)]
      exact hlaid.flat name hname rest hrest

/-- The staged directory is in its place, or all that was done is undone. -/
theorem Laid.ensures_putInPlace
    (hshows : disk.Shows (shelf.aside observed staged backup)) (hslug : slug ≠ backup)
    (hplace : slug ≠ staged) (hfree : slug ≠ observed → shelf slug [] = none) :
    Faulty.ensures (DiskAction.putInPlace (agentPath staged) (agentPath slug)
        (agentPath observed) (agentPath backup) true : DiskAction E Unit) ⟨disk, fault⟩
      (fun _ => Goes fault ((shelf.aside observed staged backup).relocate staged slug))
      (fun _ after => after.state.Shows shelf)
      fun after => after.state.Shows (shelf.aside observed staged backup) := by
  have hnone : shelf.aside observed staged backup slug [] = none := by
    rw [Shelf.aside_apart hslug hplace]
    split_ifs with hsame
    · rfl
    · exact hfree hsame
  rw [DiskAction.putInPlace, Faulty.ensures_handle]
  apply Faulty.ensures_mono (ensures_relocate hshows hplace.symm ?_ hnone)
  · exact fun _ _ hgoes => hgoes
  · intro error reached hmisses
    obtain ⟨reachedDisk, reachedFault⟩ := reached
    obtain ⟨hreached, rfl, -⟩ := hmisses
    apply Faulty.ensures_mono (hlaid.ensures_undo hreached)
    · exact fun _ _ hdone => hdone
    · exact fun _ _ hgoes => hgoes.shows
    · exact fun _ hfalse => hfalse.elim
  · exact fun _ hmisses => hmisses.shows
  · rw [hlaid.aside_staged, if_neg not_among_nil, hlaid.folder]
    rfl

end Aside

theorem ensures_putInPlace_absent (hshows : disk.Shows shelf)
    (hstaged : shelf staged [] = some .dir) (hplace : slug ≠ staged)
    (hfree : shelf slug [] = none) {previous : Path} :
    Faulty.ensures (DiskAction.putInPlace (agentPath staged) (agentPath slug) previous
        (agentPath backup) false : DiskAction E Unit) ⟨disk, fault⟩
      (fun _ => Goes fault (shelf.relocate staged slug)) (fun _ after => after.state.Shows shelf)
      fun after => after.state.Shows shelf := by
  rw [DiskAction.putInPlace, Faulty.ensures_handle]
  apply Faulty.ensures_mono
    (ensures_relocate hshows hplace.symm (by simp [hstaged]) hfree)
  · exact fun _ _ hgoes => hgoes
  · exact fun _ _ hmisses => hmisses.shows
  · exact fun _ hmisses => hmisses.shows

end Swapping

section Retaining

variable {E : Type} {disk : Disk} {fault : Option (Fault DiskStep Wreck)} {observed name : String}
  {names : Finset String}

theorem mem_staleCopies (hname : name ∈ staleCopies observed names) :
    name ∈ names ∧ isPrevious observed name = true := by
  have hcopies := List.mem_reverse.mp (List.mem_of_mem_drop hname)
  rw [previousCopies, Finset.mem_sort, Finset.mem_filter] at hcopies
  exact hcopies

theorem nodup_staleCopies (names : Finset String) : (staleCopies observed names).Nodup := by
  apply List.Nodup.sublist (List.drop_sublist 1 _)
  rw [List.nodup_reverse, previousCopies]
  exact Finset.sort_nodup _ _

/-- The latest copy is kept. -/
theorem latest_notMem_staleCopies
    (hlatest : ∀ other ∈ names, isPrevious observed other = true → other ≤ name) :
    name ∉ staleCopies observed names := by
  intro hname
  have hsorted : (previousCopies observed names).reverse.Pairwise (· > ·) := by
    rw [List.pairwise_reverse, previousCopies]
    exact (Finset.sortedLT_sort _).pairwise
  have hall (other : String) (hother : other ∈ (previousCopies observed names).reverse) :
      other ≤ name := by
    rw [List.mem_reverse, previousCopies, Finset.mem_sort, Finset.mem_filter] at hother
    exact hlatest other hother.1 hother.2
  rw [staleCopies] at hname
  cases hcopies : (previousCopies observed names).reverse with
  | nil =>
      rw [hcopies] at hname
      cases hname
  | cons latest older =>
      rw [hcopies] at hname hsorted hall
      have hlater : latest > name := (List.pairwise_cons.mp hsorted).1 name hname
      exact absurd (hall latest List.mem_cons_self) (not_le.mpr hlater)

/-- The copies that are still to be removed are as they were, and so is what is not removed. -/
structure Retains (disk : Disk) (fault : Option (Fault DiskStep Wreck)) (stale left : List String)
    (after : DiskDrive) : Prop where
  fault_eq : after.fault = fault
  subset : left ⊆ stale
  nodup : left.Nodup
  same : ∀ name ∈ left, after.state.get (agentPath name) = disk.get (agentPath name)
  others : ∀ name, name ∉ stale → ∀ rest,
    after.state.get (agentPath name ++ rest) = disk.get (agentPath name ++ rest)

/-- Only older copies are removed, and a failure comes from one that stays. -/
theorem ensures_retainPrevious (hagents : disk.isDir ["agents"] = true) :
    let stale := staleCopies observed (disk.children ["agents"])
    let kept := fun after : DiskDrive => ∀ name, name ∉ stale → ∀ rest,
      after.state.get (agentPath name ++ rest) = disk.get (agentPath name ++ rest)
    Faulty.ensures (DiskAction.retainPrevious observed : DiskAction E Unit) ⟨disk, fault⟩
      (fun _ after => kept after) (fun _ after => KeepsStale fault disk observed ∧ kept after)
      kept := by
  intro stale kept
  rw [DiskAction.retainPrevious, Faulty.ensures_bind]
  unfold DiskAction.readDir DiskAction.atomic
  apply ensures_diskStep
  · intro _ hhits
    exact ⟨⟨Or.inl hhits, fun _ _ _ => rfl⟩, fun _ _ _ => rfl⟩
  · intro _ hrefused
    rw [if_pos hagents] at hrefused
    cases hrefused
  · intro _ value state hread
    rw [if_pos hagents] at hread
    cases hread
    apply Faulty.ensures_mono (Faulty.ensures_each (Retains disk fault stale) ?_ ?_)
    · exact fun _ after hafter => hafter.others
    · exact fun _ _ hfailed => hfailed
    · exact fun _ hstopped => hstopped
    · exact ⟨rfl, fun _ hname => hname, nodup_staleCopies _, fun _ _ => rfl, fun _ _ _ => rfl⟩
    · intro name left reached hretains
      have hstale : name ∈ stale := hretains.subset List.mem_cons_self
      obtain ⟨hchild, hprevious⟩ := mem_staleCopies hstale
      obtain ⟨hnew, hnodup⟩ := List.nodup_cons.mp hretains.nodup
      have hapart {other : String} {rest : Path} (hother : other ∉ stale) :
          ¬ agentPath name <+: agentPath other ++ rest := by
        rw [prefix_agentPath]
        rintro rfl
        exact hother hstale
      unfold DiskAction.removeDirAll
      apply ensures_diskStep
      · intro wreck hhits
        rw [hretains.fault_eq] at hhits
        have hkept : kept ⟨⟨reached.state.nodes.filter fun row =>
            !((agentPath name).isPrefixOf row.1 && wreck.removed row.1)⟩, none⟩ := by
          intro other hother rest
          have hfalse : (agentPath name).isPrefixOf (agentPath other ++ rest) = false := by
            rw [← Bool.not_eq_true, List.isPrefixOf_iff_prefix]
            exact hapart hother
          rw [← hretains.others other hother rest, Disk.get, lookup_filter_key fun key =>
            !((agentPath name).isPrefixOf key && wreck.removed key), if_pos]
          · rfl
          · rw [hfalse]
            rfl
        exact ⟨⟨Or.inr ⟨name, hprevious, Or.inl hhits⟩, hkept⟩, hkept⟩
      · intro _ hrefused
        refine ⟨Or.inr ⟨name, hprevious, Or.inr ?_⟩, hretains.others⟩
        obtain ⟨node, hnode⟩ := Option.isSome_iff_exists.mp (Disk.mem_children.mp hchild)
        refine ⟨node, hnode, ?_⟩
        rintro rfl
        have hdir : reached.state.get (agentPath name) = some .dir :=
          (hretains.same name List.mem_cons_self).trans hnode
        rw [if_pos hdir] at hrefused
        cases hrefused
      · intro _ value state hremoved
        split at hremoved
        · cases hremoved
          refine ⟨hretains.fault_eq, fun other hother => hretains.subset
            (List.mem_cons_of_mem name hother), hnodup, ?_, ?_⟩
          · intro other hother
            have hne : ¬ agentPath name <+: agentPath other := by
              simp only [agentPath, List.cons_prefix_cons, List.prefix_rfl, true_and, and_true]
              rintro rfl
              exact hnew hother
            rw [Disk.get_remove, if_neg hne]
            exact hretains.same other (List.mem_cons_of_mem name hother)
          · intro other hother rest
            rw [Disk.get_remove, if_neg (hapart hother)]
            exact hretains.others other hother rest
        · cases hremoved

end Retaining

section Swap

variable {E : Type} {disk after : Disk} {fault : Option (Fault DiskStep Wreck)}
  {slug observed unique name : String} {revision : AgentRevision} {nodes : Path → Option Node}

theorem Disk.IsTree.below (htree : disk.IsTree) {path : Path} (hpath : path ≠ [])
    (hnone : disk.get path = none) (rest : Path) : disk.get (path ++ rest) = none := by
  by_contra hsome
  by_cases hrest : rest = []
  · rw [hrest, List.append_nil] at hsome
    exact hsome hnone
  · have hdir := htree path rest hrest (Option.isSome_iff_ne_none.mpr hsome)
    rw [Disk.isDir, hnone] at hdir
    simp [hpath] at hdir

theorem revisionNodes_of_among {rest : Path} (hamong : Shelf.Among localResources rest) :
    revisionNodes revision rest = none := by
  obtain ⟨name, hname, later, rfl⟩ := hamong
  rcases List.mem_cons.mp hname with rfl | hname
  · cases later with
    | nil => simp [revisionNodes, fileNodes, revisionFiles, lookup_cons_eq]
    | cons _ _ => rfl
  · rw [List.mem_singleton.mp hname]
    cases later with
    | nil => simp [revisionNodes, fileNodes, revisionFiles, lookup_cons_eq]
    | cons _ _ => rfl

theorem revisionNodes_flat {rest : Path} (hnone : revisionNodes revision [name] = none)
    (hrest : [name] <+: rest) : revisionNodes revision rest = none := by
  obtain ⟨later, rfl⟩ := hrest
  cases later with
  | nil => exact hnone
  | cons _ _ => rfl

/-! ### Where the nodes of a replica are -/

/-- Each node of the directory is in one of these. -/
def Spread (disk : Disk) (observed : String) (places : List String) (after : Disk) : Prop :=
  ∀ rest node, disk.get (agentPath observed ++ rest) = some node →
    ∃ name ∈ places, after.get (agentPath name ++ rest) = some node

/-- Where a swap puts what it finds. -/
def swapPlaces (unique slug observed : String) : List String :=
  [observed, stagedName slug unique, backupName observed unique, slug]

/-- The copies on the disk are older. -/
def Newest (disk : Disk) (observed unique : String) : Prop :=
  ∀ name, isPrevious observed name = true → disk.has (agentPath name) = true →
    name < backupName observed unique

theorem SameAgents.spread (hafter : SameAgents disk after) (hshown : ¬ Hidden observed) :
    Spread disk observed (swapPlaces unique slug observed) after := by
  intro rest node hnode
  refine ⟨observed, List.mem_cons_self, ?_⟩
  rw [hafter observed hshown, hnode]

theorem sameAgents_of_fill (hhidden : Hidden name)
    (hshows : after.Shows (disk.shelf.fill name nodes)) : SameAgents disk after := by
  intro other hother rest
  have hne : other ≠ name := by
    rintro rfl
    exact hother hhidden
  rw [hshows.under, Shelf.fill, if_neg hne, Disk.shelf]

theorem sameAgents_of_shelf (hsame : after.shelf = disk.shelf) : SameAgents disk after := by
  intro other _ rest
  exact congrFun (congrFun hsame other) rest

/-- The names of a swap. -/
structure Named (unique slug observed : String) : Prop where
  visible : ¬ Hidden slug
  shown : ¬ Hidden observed
  apart : stagedName slug unique ≠ backupName observed unique

theorem Named.of_valid (hslug : validateSlug slug = .ok ())
    (hobserved : validateSlug observed = .ok ()) : Named unique slug observed where
  visible := not_hidden_of_validateSlug hslug
  shown := not_hidden_of_validateSlug hobserved
  apart := stagedName_ne_backupName (dot_not_mem_of_validateSlug hslug)
    (dot_not_mem_of_validateSlug hobserved)

theorem ne_of_hidden {visible hidden : String} (hvisible : ¬ Hidden visible)
    (hhidden : Hidden hidden) : visible ≠ hidden := by
  rintro rfl
  exact hvisible hhidden

theorem Replaced.of_aside
    (hlaid : Laid (disk.shelf.fill (stagedName slug unique) (revisionNodes revision)) observed
      (stagedName slug unique) (backupName observed unique))
    (hshows : after.Shows (((disk.shelf.fill (stagedName slug unique)
      (revisionNodes revision)).aside observed (stagedName slug unique)
        (backupName observed unique)).relocate (stagedName slug unique) slug)) :
    Replaced disk slug observed revision after where
  replica rest := by
    rw [hshows.under, Shelf.relocate_target, hlaid.aside_staged]
    simp only [Shelf.fill, if_true, if_neg hlaid.other, Disk.shelf]
  gone hne rest := by
    rw [hshows.under, Shelf.relocate, if_neg hne, if_neg hlaid.other,
      Shelf.aside_apart hlaid.kept hlaid.other, if_pos rfl]
  others name hvisible hslug hobserved rest := by
    have hstaged := ne_of_hidden hvisible (hidden_stagedName slug unique)
    have hbackup := ne_of_hidden hvisible (hidden_backupName observed unique)
    rw [hshows.under, Shelf.relocate, if_neg hslug, if_neg hstaged,
      Shelf.aside_apart hbackup hstaged, if_neg hobserved, Shelf.fill, if_neg hstaged, Disk.shelf]

theorem Replaced.of_absent (hnamed : Named unique slug observed)
    (habsent : ∀ rest, disk.get (agentPath observed ++ rest) = none)
    (hshows : after.Shows ((disk.shelf.fill (stagedName slug unique)
      (revisionNodes revision)).relocate (stagedName slug unique) slug)) :
    Replaced disk slug observed revision after where
  replica rest := by
    rw [hshows.under, Shelf.relocate_target, Shelf.fill, if_pos rfl, habsent]
    split_ifs with hamong
    · exact revisionNodes_of_among hamong
    · rfl
  gone hne rest := by
    have hstaged := ne_of_hidden hnamed.shown (hidden_stagedName slug unique)
    rw [hshows.under, Shelf.relocate, if_neg hne, if_neg hstaged, Shelf.fill, if_neg hstaged]
    exact habsent rest
  others name hvisible hslug hobserved rest := by
    have hstaged := ne_of_hidden hvisible (hidden_stagedName slug unique)
    rw [hshows.under, Shelf.relocate, if_neg hslug, if_neg hstaged, Shelf.fill, if_neg hstaged,
      Disk.shelf]

/-- The only new copy is a directory. -/
def CopiesKept (disk after : Disk) (observed unique : String) : Prop :=
  ∀ name, isPrevious observed name = true → ∀ node, after.get (agentPath name) = some node →
    name = backupName observed unique ∧ node = .dir ∨ disk.get (agentPath name) = some node

theorem KeepsStale.of_copiesKept (hcopies : CopiesKept disk after observed unique)
    (hstale : KeepsStale fault after observed) : KeepsStale fault disk observed := by
  rcases hstale with hhits | ⟨name, hprevious, hhits | ⟨node, hnode, hfile⟩⟩
  · exact Or.inl hhits
  · exact Or.inr ⟨name, hprevious, Or.inl hhits⟩
  · refine Or.inr ⟨name, hprevious, Or.inr ⟨node, ?_, hfile⟩⟩
    exact (hcopies name hprevious node hnode).resolve_left fun hnew => hfile hnew.2

/-- The copy of this call is the latest. -/
theorem CopiesKept.backup_notMem (hcopies : CopiesKept disk after observed unique)
    (hnewest : Newest disk observed unique) :
    backupName observed unique ∉ staleCopies observed (after.children ["agents"]) := by
  apply latest_notMem_staleCopies
  intro name hchild hprevious
  obtain ⟨node, hnode⟩ := Option.isSome_iff_exists.mp (Disk.mem_children.mp hchild)
  rcases hcopies name hprevious node hnode with ⟨rfl, -⟩ | hthere
  · exact le_rfl
  · exact (hnewest name hprevious (Option.isSome_of_mem hthere)).le

/-- What is set aside is in two directories. -/
theorem Spread.of_part {shelf : Shelf} {part : List String}
    (hhere : ∀ rest, shelf observed rest = disk.get (agentPath observed ++ rest))
    (hshows : after.Shows ((shelf.relocate observed (backupName observed unique)).carry
      (backupName observed unique) (stagedName slug unique) part)) :
    Spread disk observed (swapPlaces unique slug observed) after := by
  intro rest node hnode
  by_cases hamong : Shelf.Among part rest
  · refine ⟨stagedName slug unique, by simp [swapPlaces], ?_⟩
    rw [hshows.under, Shelf.carry, if_pos hamong, if_pos rfl, Shelf.relocate_target, hhere, hnode]
  · refine ⟨backupName observed unique, by simp [swapPlaces], ?_⟩
    rw [hshows.under, Shelf.carry, if_neg hamong, Shelf.relocate_target, hhere, hnode]

/-- The resources are in the new place, and the rest is aside. -/
theorem Spread.of_placed {shelf : Shelf}
    (hlaid : Laid shelf observed (stagedName slug unique) (backupName observed unique))
    (hslug : slug ≠ backupName observed unique)
    (hhere : ∀ rest, shelf observed rest = disk.get (agentPath observed ++ rest))
    (hshows : after.Shows ((shelf.aside observed (stagedName slug unique)
      (backupName observed unique)).relocate (stagedName slug unique) slug)) :
    Spread disk observed [backupName observed unique, slug] after := by
  intro rest node hnode
  by_cases hamong : Shelf.Among localResources rest
  · refine ⟨slug, by simp, ?_⟩
    rw [hshows.under, Shelf.relocate_target, hlaid.aside_staged, if_pos hamong, hhere, hnode]
  · refine ⟨backupName observed unique, by simp, ?_⟩
    rw [hshows.under, Shelf.relocate, if_neg hslug.symm, if_neg hlaid.beside, hlaid.aside_backup,
      if_neg hamong, hhere, hnode]

/-- What a swap needs of the disk. -/
structure Swappable (disk : Disk) (unique slug observed : String) : Prop where
  tree : disk.IsTree
  named : Named unique slug observed
  staged : disk.get (agentPath (stagedName slug unique)) = none
  backup : disk.get (agentPath (backupName observed unique)) = none
  free : slug ≠ observed → disk.get (agentPath slug) = none
  folder : ∀ node, disk.get (agentPath observed) = some node → node = .dir

theorem Swappable.laid (hswap : Swappable disk unique slug observed)
    (hthere : disk.get (agentPath observed) = some .dir) :
    Laid (disk.shelf.fill (stagedName slug unique) (revisionNodes revision)) observed
      (stagedName slug unique) (backupName observed unique) where
  unused rest := by
    rw [Shelf.fill, if_neg hswap.named.apart.symm]
    exact hswap.tree.below (List.cons_ne_nil _ _) hswap.backup rest
  source := by
    rw [Shelf.fill, if_neg (ne_of_hidden hswap.named.shown (hidden_stagedName slug unique)),
      Disk.shelf, List.append_nil, hthere]
  tree name hnone rest hrest := by
    rw [Shelf.fill, if_neg (ne_of_hidden hswap.named.shown (hidden_stagedName slug unique)),
      Disk.shelf] at hnone ⊢
    obtain ⟨later, rfl⟩ := hrest
    rw [← List.append_assoc]
    exact hswap.tree.below (by simp [agentPath]) hnone later
  folder := by
    rw [Shelf.fill, if_pos rfl]
    rfl
  flat name hnone rest hrest := by
    rw [Shelf.fill, if_pos rfl] at hnone ⊢
    exact revisionNodes_flat hnone hrest
  empty rest hamong := by
    rw [Shelf.fill, if_pos rfl]
    exact revisionNodes_of_among hamong
  kept := ne_of_hidden hswap.named.shown (hidden_backupName observed unique)
  beside := hswap.named.apart.symm
  other := ne_of_hidden hswap.named.shown (hidden_stagedName slug unique)

theorem CopiesKept.of_aside (hswap : Swappable disk unique slug observed)
    (hlaid : Laid (disk.shelf.fill (stagedName slug unique) (revisionNodes revision)) observed
      (stagedName slug unique) (backupName observed unique))
    (hshows : after.Shows (((disk.shelf.fill (stagedName slug unique)
      (revisionNodes revision)).aside observed (stagedName slug unique)
        (backupName observed unique)).relocate (stagedName slug unique) slug)) :
    CopiesKept disk after observed unique := by
  intro name hprevious node hnode
  have hhidden := hidden_of_isPrevious hprevious
  have hslug := (ne_of_hidden hswap.named.visible hhidden).symm
  have hobserved := (ne_of_hidden hswap.named.shown hhidden).symm
  rw [hshows.get, Shelf.relocate, if_neg hslug] at hnode
  by_cases hstaged : name = stagedName slug unique
  · rw [if_pos hstaged] at hnode
    cases hnode
  · rw [if_neg hstaged] at hnode
    by_cases hbackup : name = backupName observed unique
    · rw [hbackup, hlaid.aside_backup, if_neg not_among_nil, hlaid.source] at hnode
      exact Or.inl ⟨hbackup, (Option.some.inj hnode).symm⟩
    · rw [Shelf.aside_apart hbackup hstaged, if_neg hobserved, Shelf.fill, if_neg hstaged,
        Disk.shelf, List.append_nil] at hnode
      exact Or.inr hnode

theorem CopiesKept.of_absent (hswap : Swappable disk unique slug observed)
    (hshows : after.Shows ((disk.shelf.fill (stagedName slug unique)
      (revisionNodes revision)).relocate (stagedName slug unique) slug)) :
    CopiesKept disk after observed unique := by
  intro name hprevious node hnode
  have hslug := (ne_of_hidden hswap.named.visible (hidden_of_isPrevious hprevious)).symm
  rw [hshows.get, Shelf.relocate, if_neg hslug] at hnode
  by_cases hstaged : name = stagedName slug unique
  · rw [if_pos hstaged] at hnode
    cases hnode
  · rw [if_neg hstaged, Shelf.fill, if_neg hstaged, Disk.shelf, List.append_nil] at hnode
    exact Or.inr hnode

/-- Where the directory is there, it is set aside and the staged one takes its place. -/
theorem Swappable.ensures_present (hswap : Swappable disk unique slug observed)
    (hthere : disk.get (agentPath observed) = some .dir) {staged : Disk}
    (hshows : staged.Shows (disk.shelf.fill (stagedName slug unique) (revisionNodes revision))) :
    Faulty.ensures (do
        DiskAction.setAside (agentPath observed) (agentPath (backupName observed unique))
          (agentPath (stagedName slug unique))
        DiskAction.putInPlace (agentPath (stagedName slug unique)) (agentPath slug)
          (agentPath observed) (agentPath (backupName observed unique)) true :
        DiskAction E Unit) ⟨staged, fault⟩
      (fun _ after => after.fault = fault ∧ after.state.isDir ["agents"] = true ∧
        Replaced disk slug observed revision after.state ∧
        CopiesKept disk after.state observed unique ∧
        Spread disk observed [backupName observed unique, slug] after.state)
      (fun _ after => SameAgents disk after.state)
      fun after => Spread disk observed (swapPlaces unique slug observed) after.state := by
  have hlaid : Laid (disk.shelf.fill (stagedName slug unique) (revisionNodes revision))
      observed (stagedName slug unique) (backupName observed unique) := hswap.laid hthere
  have hplace := ne_of_hidden hswap.named.visible (hidden_stagedName slug unique)
  have hbackup := ne_of_hidden hswap.named.visible (hidden_backupName observed unique)
  have hfree (hslug : slug ≠ observed) :
      (disk.shelf.fill (stagedName slug unique) (revisionNodes revision)) slug [] = none := by
    rw [Shelf.fill, if_neg hplace, Disk.shelf, List.append_nil, hswap.free hslug]
  have hhere (rest : Path) : (disk.shelf.fill (stagedName slug unique) (revisionNodes revision))
      observed rest = disk.get (agentPath observed ++ rest) := by
    rw [Shelf.fill, if_neg hlaid.other, Disk.shelf]
  rw [Faulty.ensures_bind]
  apply Faulty.ensures_mono (hlaid.ensures_setAside hshows)
  · intro _ aside haside
    obtain ⟨asideDisk, asideFault⟩ := aside
    obtain ⟨hasideShows, rfl⟩ := haside
    apply Faulty.ensures_mono (hlaid.ensures_putInPlace hasideShows hbackup hplace hfree)
    · intro _ final hfinal
      exact ⟨hfinal.fault_eq, hfinal.shows.isDir_agents, .of_aside hlaid hfinal.shows,
        .of_aside hswap hlaid hfinal.shows, .of_placed hlaid hbackup hhere hfinal.shows⟩
    · intro _ final hfinal
      exact sameAgents_of_fill (hidden_stagedName slug unique) hfinal
    · intro final hfinal
      exact .of_part hhere hfinal
  · intro _ final hfinal
    exact sameAgents_of_fill (hidden_stagedName slug unique) hfinal.shows
  · rintro final (hfinal | ⟨part, hfinal⟩)
    · exact (sameAgents_of_fill (hidden_stagedName slug unique) hfinal).spread hswap.named.shown
    · exact .of_part hhere hfinal

theorem Swappable.ensures_absent (hswap : Swappable disk unique slug observed)
    (habsent : disk.get (agentPath observed) = none) {staged : Disk}
    (hshows : staged.Shows (disk.shelf.fill (stagedName slug unique) (revisionNodes revision))) :
    Faulty.ensures (DiskAction.putInPlace (agentPath (stagedName slug unique)) (agentPath slug)
        (agentPath observed) (agentPath (backupName observed unique)) false :
        DiskAction E Unit) ⟨staged, fault⟩
      (fun _ after => after.fault = fault ∧ after.state.isDir ["agents"] = true ∧
        Replaced disk slug observed revision after.state ∧
        CopiesKept disk after.state observed unique ∧
        Spread disk observed [backupName observed unique, slug] after.state)
      (fun _ after => SameAgents disk after.state)
      fun after => Spread disk observed (swapPlaces unique slug observed) after.state := by
  have hplace := ne_of_hidden hswap.named.visible (hidden_stagedName slug unique)
  have hnone (rest : Path) : disk.get (agentPath observed ++ rest) = none :=
    hswap.tree.below (List.cons_ne_nil _ _) habsent rest
  have hempty (places : List String) (after : Disk) : Spread disk observed places after := by
    intro rest node hnode
    rw [hnone rest] at hnode
    cases hnode
  apply Faulty.ensures_mono (ensures_putInPlace_absent hshows ?_ hplace ?_)
  · intro _ final hfinal
    exact ⟨hfinal.fault_eq, hfinal.shows.isDir_agents,
      .of_absent hswap.named hnone hfinal.shows, .of_absent hswap hfinal.shows, hempty _ _⟩
  · intro _ final hfinal
    exact sameAgents_of_fill (hidden_stagedName slug unique) hfinal
  · exact fun _ _ => hempty _ _
  · rw [Shelf.fill, if_pos rfl]
    rfl
  · rw [Shelf.fill, if_neg hplace, Disk.shelf, List.append_nil]
    by_cases hslug : slug = observed
    · rw [hslug, habsent]
    · exact hswap.free hslug

/-- The replica is that of the revision, or no directory of an Agent has changed.  Nothing is
lost where the process stops. -/
theorem Swappable.ensures_swapAgent (hswap : Swappable disk unique slug observed) :
    Faulty.ensures (DiskAction.swapAgent unique slug observed revision : DiskAction E Unit)
      ⟨disk, fault⟩
      (fun _ after => after.fault = fault ∧ after.state.isDir ["agents"] = true ∧
        Replaced disk slug observed revision after.state ∧
        CopiesKept disk after.state observed unique ∧
        Spread disk observed [backupName observed unique, slug] after.state)
      (fun _ after => SameAgents disk after.state)
      fun after => Spread disk observed (swapPlaces unique slug observed) after.state := by
  have hnew := hswap.tree.below (List.cons_ne_nil _ _) hswap.staged
  rw [DiskAction.swapAgent, Faulty.ensures_bind]
  apply Faulty.ensures_mono ensures_createAgents
  · intro _ reached hgoes
    obtain ⟨reachedDisk, reachedFault⟩ := reached
    obtain ⟨hreached, rfl⟩ := hgoes
    rw [Faulty.ensures_bind]
    apply Faulty.ensures_mono (ensures_stageAgent hreached hnew)
    · intro _ staged hstaged
      obtain ⟨stagedDisk, stagedFault⟩ := staged
      obtain ⟨hshows, rfl⟩ := hstaged
      have hother := ne_of_hidden hswap.named.shown (hidden_stagedName slug unique)
      have hsame : stagedDisk.get (agentPath observed) = disk.get (agentPath observed) := by
        rw [hshows.get, Shelf.fill, if_neg hother, Disk.shelf, List.append_nil]
      rw [Faulty.ensures_bind, DiskAction.has, Faulty.ensures_reads]
      simp only [Disk.has, hsame]
      cases hget : disk.get (agentPath observed) with
      | none => exact hswap.ensures_absent hget hshows
      | some node =>
          rw [hswap.folder node hget] at hget
          exact hswap.ensures_present hget hshows
    · rintro _ after ⟨nodes, hshows⟩
      exact sameAgents_of_fill (hidden_stagedName slug unique) hshows
    · rintro after ⟨nodes, hshows⟩
      exact (sameAgents_of_fill (hidden_stagedName slug unique) hshows).spread hswap.named.shown
  · intro _ after hsame
    exact sameAgents_of_shelf hsame
  · intro after hsame
    exact (sameAgents_of_shelf hsame).spread hswap.named.shown

end Swap

/-! ## All or nothing -/

section Materialized

variable {E : Type} {disk after : Disk} {fault : Option (Fault DiskStep Wreck)} {unique : String}
  {agent : Agent} {revision : AgentRevision} {expected : Option AgentReplica}
  {previousSlug : Option String}

theorem notMem_staleCopies_of_visible {observed name : String} {names : Finset String}
    (hname : ¬ Hidden name) : name ∉ staleCopies observed names := by
  intro hstale
  exact hname (hidden_of_isPrevious (mem_staleCopies hstale).2)

theorem Replaced.of_untouched {slug observed : String} {replaced : Disk}
    (hreplaced : Replaced disk slug observed revision replaced) (hslug : ¬ Hidden slug)
    (hobserved : ¬ Hidden observed)
    (hkept : ∀ name, name ∉ staleCopies observed (replaced.children ["agents"]) → ∀ rest,
      after.get (agentPath name ++ rest) = replaced.get (agentPath name ++ rest)) :
    Replaced disk slug observed revision after := by
  have hvisible (name : String) (hname : ¬ Hidden name) :
      name ∉ staleCopies observed (replaced.children ["agents"]) :=
    notMem_staleCopies_of_visible hname
  constructor
  · intro rest
    rw [hkept _ (hvisible _ hslug), hreplaced.replica]
  · intro hne rest
    rw [hkept _ (hvisible _ hobserved), hreplaced.gone hne]
  · intro name hname hne hother rest
    rw [hkept _ (hvisible _ hname), hreplaced.others name hname hne hother]

/-- A place that is kept keeps what is there. -/
theorem Spread.of_kept {slug observed : String} {swapped : Disk}
    (hspread : Spread disk observed [backupName observed unique, slug] swapped)
    (hslug : ¬ Hidden slug)
    (hbackup : backupName observed unique ∉ staleCopies observed (swapped.children ["agents"]))
    (hkept : ∀ name, name ∉ staleCopies observed (swapped.children ["agents"]) → ∀ rest,
      after.get (agentPath name ++ rest) = swapped.get (agentPath name ++ rest)) :
    Spread disk observed (swapPlaces unique slug observed) after := by
  intro rest node hnode
  obtain ⟨name, hname, hthere⟩ := hspread rest node hnode
  refine ⟨name, ?_, ?_⟩
  · rw [List.mem_pair] at hname
    rcases hname with rfl | rfl
    · simp [swapPlaces]
    · simp [swapPlaces]
  · rw [hkept name ?_ rest, hthere]
    rw [List.mem_pair] at hname
    rcases hname with rfl | rfl
    · exact hbackup
    · exact notMem_staleCopies_of_visible hslug

theorem Newest.backup {observed : String} (hnewest : Newest disk observed unique) :
    disk.get (agentPath (backupName observed unique)) = none := by
  by_contra hthere
  have hhas : disk.has (agentPath (backupName observed unique)) = true :=
    Option.isSome_iff_ne_none.mpr hthere
  exact lt_irrefl _ (hnewest _ isPrevious_backupName hhas)

/-- The revision that is to be there is there. -/
theorem Replaced.replica_eq {slug observed : String}
    (hreplaced : Replaced disk slug observed revision after) (hbound : revision.revision < 2 ^ 64) :
    after.replica slug = some ⟨revision.revision, revision.soul, revision.configToml⟩ := by
  have hfile (name : String) (hname : name ∉ localResources) :
      after.get (agentPath slug ++ [name]) = ((revisionFiles revision).lookup name).map .file := by
    rw [hreplaced.replica, if_neg (mt among_singleton.mp hname)]
    rfl
  have hrevision := hfile ".revision" (by decide)
  have hsoul := hfile "SOUL.md" (by decide)
  have hconfig := hfile "agent.toml" (by decide)
  have hnumber : parseUsize (trimText (toString revision.revision)) = some revision.revision := by
    rw [trimText_toString, parseUsize_toString hbound]
  have hrevisionFile : (revisionFiles revision).lookup ".revision" =
      some (toString revision.revision) := rfl
  have hsoulFile : (revisionFiles revision).lookup "SOUL.md" = some revision.soul := rfl
  have hconfigFile : (revisionFiles revision).lookup "agent.toml" = some revision.configToml := rfl
  rw [hrevisionFile, Option.map_some] at hrevision
  rw [hsoulFile, Option.map_some] at hsoul
  rw [hconfigFile, Option.map_some] at hconfig
  rw [Disk.replica, hrevision, hsoul, hconfig]
  simp only [hnumber, Option.map_some]

theorem Disk.replica_of_absent {slug : String} (htree : disk.IsTree)
    (habsent : disk.has (agentPath slug) = false) : disk.replica slug = none := by
  have hnone : disk.get (agentPath slug) = none := by
    rwa [Disk.has, Option.isSome_eq_false_iff, Option.isNone_iff_eq_none] at habsent
  have hpath : agentPath slug ≠ [] := List.cons_ne_nil _ _
  rw [Disk.replica, htree.below hpath hnone]

/-- A directory that can be read is one. -/
theorem Disk.dir_of_replica {slug : String} (htree : disk.IsTree)
    (hreplica : (disk.replica slug).isSome) : disk.get (agentPath slug) = some .dir := by
  have hrevision : (disk.get (agentPath slug ++ [".revision"])).isSome := by
    by_contra hnone
    rw [Bool.not_eq_true, Option.isSome_eq_false_iff, Option.isNone_iff_eq_none] at hnone
    simp [Disk.replica, hnone] at hreplica
  have hdir := htree (agentPath slug) [".revision"] (List.cons_ne_nil _ _) hrevision
  rw [Disk.isDir, Bool.or_eq_true, decide_eq_true_iff, decide_eq_true_iff] at hdir
  exact hdir.resolve_left (List.cons_ne_nil _ _)

/-- What a call leaves of the replica. -/
theorem ensures_materializeAgent (htree : disk.IsTree)
    (hslug : validateSlug agent.slug = .ok ())
    (hprevious : ∀ previous ∈ previousSlug, validateSlug previous = .ok ())
    (hstaged : disk.get (agentPath (stagedName agent.slug unique)) = none)
    (hbackup : disk.get (agentPath (backupName (previousSlug.getD agent.slug) unique)) = none) :
    let observed := previousSlug.getD agent.slug
    let spread := fun after : DiskDrive => Newest disk observed unique →
      Spread disk observed (swapPlaces unique agent.slug observed) after.state
    Faulty.ensures (DiskAction.materializeAgent unique agent revision expected previousSlug :
        DiskAction E Unit) ⟨disk, fault⟩
      (fun _ after => spread after ∧ disk.replica observed = expected ∧
        (Replaced disk agent.slug observed revision after.state ∨
          after.state = disk ∧ previousSlug = none ∧
            expected = some ⟨revision.revision, revision.soul, revision.configToml⟩))
      (fun _ after => spread after ∧
        (SameAgents disk after.state ∨ disk.replica observed = expected ∧
          Replaced disk agent.slug observed revision after.state ∧
          KeepsStale fault disk observed))
      spread := by
  intro observed spread
  have hobserved : validateSlug observed = .ok () := by
    cases previousSlug with
    | none => exact hslug
    | some previous => exact hprevious previous rfl
  have hshown : ¬ Hidden observed := not_hidden_of_validateSlug hobserved
  have hself : SameAgents disk disk := fun _ _ _ => rfl
  have hstays (after : DiskDrive) (hafter : SameAgents disk after.state) : spread after :=
    fun _ => hafter.spread hshown
  rw [DiskAction.materializeAgent]
  by_cases hother : revision.agentId ≠ agent.id ∨ revision.revision ≠ agent.currentRevision
  · rw [if_pos hother]
    exact ⟨hstays _ hself, Or.inl hself⟩
  rw [if_neg hother, Faulty.ensures_bind]
  apply Faulty.ensures_mono ensures_readAgent
  · rintro replica _ ⟨rfl, hread⟩
    have hreplica : replica = disk.replica observed := by
      rcases hread with ⟨rfl, habsent⟩ | ⟨-, hsame⟩
      · exact (Disk.replica_of_absent htree habsent).symm
      · exact hsame
    by_cases hexpected : replica ≠ expected
    · rw [if_pos hexpected]
      exact ⟨hstays _ hself, Or.inl hself⟩
    rw [if_neg hexpected]
    have hfound : disk.replica observed = expected := hreplica.symm.trans (not_not.mp hexpected)
    rw [Faulty.ensures_bind, DiskAction.has, Faulty.ensures_reads]
    by_cases htaken : (previousSlug.isSome && disk.has (agentPath agent.slug)) = true
    · rw [if_pos htaken]
      exact ⟨hstays _ hself, Or.inl hself⟩
    rw [if_neg htaken]
    by_cases hsame : expected = some ⟨revision.revision, revision.soul, revision.configToml⟩ ∧
        previousSlug = none
    · rw [if_pos hsame]
      exact ⟨hstays _ hself, hfound, Or.inr ⟨rfl, hsame.2, hsame.1⟩⟩
    rw [if_neg hsame, Faulty.ensures_bind]
    have hswap : Swappable disk unique agent.slug observed := by
      refine ⟨htree, .of_valid hslug hobserved, hstaged, hbackup, ?_, ?_⟩
      · intro hne
        cases previousSlug with
        | none => exact absurd rfl hne
        | some previous =>
            rw [Option.isSome_some, Bool.true_and, Disk.has, Bool.not_eq_true,
              Option.isSome_eq_false_iff, Option.isNone_iff_eq_none] at htaken
            exact htaken
      · intro node hnode
        have hthere : (disk.replica observed).isSome := by
          rcases hread with ⟨-, habsent⟩ | ⟨hsome, hsame⟩
          · rw [Disk.has, hnode] at habsent
            cases habsent
          · exact hsame ▸ hsome
        exact Option.some.inj (hnode.symm.trans (Disk.dir_of_replica htree hthere))
    apply Faulty.ensures_mono hswap.ensures_swapAgent
    · rintro _ ⟨swapped, swappedFault⟩ ⟨rfl, hagents, hreplaced, hcopies, hspread⟩
      have hlater (final : DiskDrive) (hkept : ∀ name,
          name ∉ staleCopies observed (swapped.children ["agents"]) → ∀ rest,
            final.state.get (agentPath name ++ rest) = swapped.get (agentPath name ++ rest)) :
          spread final :=
        fun hnewest => hspread.of_kept hswap.named.visible (hcopies.backup_notMem hnewest) hkept
      apply Faulty.ensures_mono (ensures_retainPrevious hagents)
      · intro _ final hkept
        exact ⟨hlater final hkept, hfound,
          Or.inl (hreplaced.of_untouched hswap.named.visible hshown hkept)⟩
      · rintro _ final ⟨hstale, hkept⟩
        exact ⟨hlater final hkept, Or.inr ⟨hfound,
          hreplaced.of_untouched hswap.named.visible hshown hkept, hstale.of_copiesKept hcopies⟩⟩
      · exact hlater
    · exact fun _ after huntouched => ⟨hstays after huntouched, Or.inl huntouched⟩
    · exact fun _ hspread _ => hspread
  · intro _ after hsame
    have huntouched : SameAgents disk after.state := hsame ▸ hself
    exact ⟨hstays after huntouched, Or.inl huntouched⟩
  · intro after hsame
    exact hstays after (hsame ▸ hself)

/-- However a call ends, also where the process stops at a step or within it, every node of the
replica that was there is still on the disk. -/
theorem materializeAgent_spread {ending : Ending (DiskError E) Unit} {after : DiskDrive}
    (htree : disk.IsTree) (hslug : validateSlug agent.slug = .ok ())
    (hprevious : ∀ previous ∈ previousSlug, validateSlug previous = .ok ())
    (hstaged : disk.get (agentPath (stagedName agent.slug unique)) = none)
    (hnewest : Newest disk (previousSlug.getD agent.slug) unique)
    (hrun : DiskAction.materializeAgent unique agent revision expected previousSlug ⟨disk, fault⟩ =
      (ending, after)) :
    Spread disk (previousSlug.getD agent.slug)
      (swapPlaces unique agent.slug (previousSlug.getD agent.slug)) after.state := by
  have hensures : Faulty.ensures (DiskAction.materializeAgent unique agent revision expected
      previousSlug : DiskAction E Unit) ⟨disk, fault⟩ _ _ _ :=
    ensures_materializeAgent htree hslug hprevious hstaged hnewest.backup
  rw [Faulty.ensures, hrun] at hensures
  cases ending with
  | done value => exact hensures.1 hnewest
  | failed error => exact hensures.1 hnewest
  | stopped => exact hensures hnewest

end Materialized

namespace RenamedReplica

def agent : Agent :=
  { id := ⟨"1"⟩, slug := "beta", currentRevision := 2, archived := false, createdAt := 0 }

def revision : AgentRevision :=
  { agentId := ⟨"1"⟩, revision := 2, soul := "new", configToml := "", contentHash := ""
    authorHostId := ⟨"1"⟩, createdAt := 0 }

/-- The Agent has been renamed from `alpha`, and it has a skill. -/
def disk : Disk where
  nodes :=
    [(["agents"], .dir), (["agents", "alpha"], .dir),
      (["agents", "alpha", ".revision"], .file "1"), (["agents", "alpha", "SOUL.md"], .file "old"),
      (["agents", "alpha", "agent.toml"], .file ""), (["agents", "alpha", "skills"], .dir),
      (["agents", "alpha", "skills", "deploy.md"], .file "deploy")]

/-- The staged directory cannot be renamed. -/
def fault : Fault DiskStep Wreck where
  operation := .rename ["agents", ".beta.sync-1"] ["agents", "beta"]
  stops := false
  wreck := { written := none, removed := fun _ => false }

def result : Ending (DiskError Empty) Unit × DiskDrive :=
  DiskAction.materializeAgent "1" agent revision (some ⟨1, "old", ""⟩) (some "alpha")
    ⟨disk, some fault⟩

/-- The process stops there, and the skill is in the staged directory. -/
def stop : Fault DiskStep Wreck := { fault with stops := true }

def stopped : Ending (DiskError Empty) Unit × DiskDrive :=
  DiskAction.materializeAgent "1" agent revision (some ⟨1, "old", ""⟩) (some "alpha")
    ⟨disk, some stop⟩

theorem stopped_spread : Spread disk "alpha" (swapPlaces "1" "beta" "alpha") stopped.2.state := by
  have htree : disk.IsTree := .of_rows (by decide)
  have hnewest : Newest disk "alpha" "1" := by
    intro name hprevious hthere
    have hchild : name ∈ disk.children ["agents"] := Disk.mem_children.mpr hthere
    have hnames : disk.children ["agents"] = {"alpha"} := by decide
    rw [hnames, Finset.mem_singleton] at hchild
    rw [hchild] at hprevious
    exact absurd hprevious (by decide)
  have hrun : DiskAction.materializeAgent "1" agent revision (some ⟨1, "old", ""⟩) (some "alpha")
      ⟨disk, some stop⟩ = (stopped.1, stopped.2) := rfl
  have hslug : validateSlug agent.slug = .ok () := by decide
  have hprevious : ∀ previous ∈ some "alpha", validateSlug previous = .ok () := by decide
  have hstaged : disk.get (agentPath (stagedName agent.slug "1")) = none := by decide
  exact materializeAgent_spread htree hslug hprevious hstaged hnewest hrun

end RenamedReplica

end Mews
