import Mews.Core.Disk

/-!
# The directories of the Agents

Below `agents` every Agent has a directory with its definition, and with skills and
extensions that belong to the machine.  A revision is staged beside it and put in its place,
and the directory that was there is kept under another name.
-/

namespace Mews

variable {E : Type}

def agentPath (name : String) : Path := ["agents", name]

/-- What is not part of a revision. -/
def localResources : List String := ["skills", "extensions"]

def previousStem (slug : String) : String := "." ++ slug ++ ".previous-"

def isPrevious (slug name : String) : Bool := (previousStem slug).toList.isPrefixOf name.toList

/-- The copies of a directory that were kept, the oldest first. -/
def previousCopies (slug : String) (names : Finset String) : List String :=
  (names.filter fun name => isPrevious slug name).sort (· ≤ ·)

/-- All but the latest. -/
def staleCopies (slug : String) (names : Finset String) : List String :=
  (previousCopies slug names).reverse.drop 1

namespace DiskAction

/-- Moves the resources that are there, or none of them. -/
def moveResources (source target : Path) (moved : List String) :
    List String → DiskAction E Unit
  | [] => Faulty.ret ()
  | name :: rest => do
      if ← has (source ++ [name]) then
        Faulty.handle (rename (source ++ [name]) (target ++ [name])) fun error => do
          Faulty.each moved fun name =>
            Faulty.ignore (rename (target ++ [name]) (source ++ [name]))
          Faulty.fail error
        moveResources source target (name :: moved) rest
      else moveResources source target moved rest

def retainPrevious (slug : String) : DiskAction E Unit := do
  let names ← readDir ["agents"]
  Faulty.each (staleCopies slug names) fun name => removeDirAll (agentPath name)

end DiskAction

/-! ## What is below `agents` -/

/-- The nodes of the directories by their names. -/
abbrev Shelf := String → Path → Option Node

structure Disk.Shows (disk : Disk) (shelf : Shelf) : Prop where
  agents : disk.get ["agents"] = some .dir
  under : ∀ name rest, disk.get (agentPath name ++ rest) = shelf name rest

namespace Shelf

variable (shelf : Shelf)

/-- One directory has the place of another. -/
def relocate (source target : String) : Shelf := fun name =>
  if name = target then shelf source else if name = source then fun _ => none else shelf name

/-- A node is where there was none. -/
def place (folder : String) (path : Path) (node : Node) : Shelf := fun name rest =>
  if name = folder ∧ rest = path then some node else shelf name rest

/-- Whether a node belongs to one of the resources. -/
def Among (names : List String) (rest : Path) : Prop := ∃ name ∈ names, [name] <+: rest

instance (names : List String) (rest : Path) : Decidable (Among names rest) :=
  inferInstanceAs (Decidable (∃ name ∈ names, [name] <+: rest))

/-- The resources have gone from one directory to another. -/
def carry (source target : String) (names : List String) : Shelf := fun name rest =>
  if Among names rest then
    if name = target then shelf source rest else if name = source then none else shelf name rest
  else shelf name rest

end Shelf

/-- The step is the one that fails. -/
def Hits (fault : Option (Fault DiskStep Wreck)) (step : DiskStep) : Prop :=
  ∃ struck ∈ fault, struck.operation = step

/-- What has been done shows, and the fault is still to come. -/
structure Goes (fault : Option (Fault DiskStep Wreck)) (shelf : Shelf) (after : DiskDrive) :
    Prop where
  shows : after.state.Shows shelf
  fault_eq : after.fault = fault

/-- A step has failed, and no other can. -/
structure Misses (fault : Option (Fault DiskStep Wreck)) (shelf : Shelf) (after : DiskDrive) :
    Prop where
  shows : after.state.Shows shelf
  fault_eq : after.fault = none
  struck : fault.isSome

section Steps

variable {disk : Disk} {shelf : Shelf} {fault : Option (Fault DiskStep Wreck)}
  {source target name : String}

theorem hits_of_strikes {drive : DiskDrive} {operation : DiskStep}
    {struck : Fault DiskStep Wreck} (hstrikes : drive.strikes operation = some struck) :
    Hits drive.fault operation := ⟨struck, Drive.strikes_eq_some_iff.mp hstrikes⟩

theorem not_hits_of_strikes {drive : DiskDrive} {operation : DiskStep}
    (hstrikes : drive.strikes operation = none) : ¬ Hits drive.fault operation := by
  rintro ⟨struck, hfault, hoperation⟩
  exact Drive.strikes_eq_none_iff.mp hstrikes struck hfault hoperation

theorem Hits.isSome {step : DiskStep} (hhits : Hits fault step) : fault.isSome := by
  obtain ⟨struck, hfault, -⟩ := hhits
  exact Option.isSome_of_mem hfault

theorem prefix_agentPath {rest : Path} :
    agentPath source <+: agentPath name ++ rest ↔ name = source := by
  simp [agentPath, eq_comm]

theorem prefix_agentPath_append {path rest : Path} :
    agentPath source ++ path <+: agentPath name ++ rest ↔ name = source ∧ path <+: rest := by
  simp [agentPath, eq_comm]

theorem agentPath_append_ne (name : String) (rest : Path) :
    agentPath name ++ rest ≠ ["agents"] := by
  simp [agentPath]

theorem not_prefix_agents (name : String) (rest : Path) :
    ¬ agentPath name ++ rest <+: ["agents"] := by
  simp [agentPath]

theorem Disk.Shows.isDir_agents (hshows : disk.Shows shelf) : disk.isDir ["agents"] = true := by
  simp [Disk.isDir, hshows.agents]

theorem Disk.Shows.get (hshows : disk.Shows shelf) : disk.get (agentPath name) = shelf name [] := by
  rw [← hshows.under, List.append_nil]

/-- A whole directory is moved. -/
theorem Disk.Shows.move (hshows : disk.Shows shelf) (hne : source ≠ target) :
    (disk.move (agentPath source) (agentPath target)).Shows (shelf.relocate source target) where
  agents := by
    have hsource : ¬ agentPath source <+: ["agents"] := by simp [agentPath]
    have htarget : ¬ agentPath target <+: ["agents"] := by simp [agentPath]
    rw [Disk.get_move_apart hsource htarget, hshows.agents]
  under name rest := by
    rw [Shelf.relocate]
    by_cases htarget : name = target
    · have hapart : ¬ agentPath source <+: agentPath target := by simp [agentPath, hne]
      have hapart' : ¬ agentPath target <+: agentPath source := by simp [agentPath, hne.symm]
      rw [if_pos htarget, htarget, Disk.get_move_below hapart hapart', hshows.under]
    · rw [if_neg htarget]
      have hnot : ¬ agentPath target <+: agentPath name ++ rest := by
        rw [prefix_agentPath]
        exact htarget
      by_cases hsource : name = source
      · rw [if_pos hsource, Disk.get_move_source (prefix_agentPath.mpr hsource) hnot]
      · rw [if_neg hsource, Disk.get_move_apart (mt prefix_agentPath.mp hsource) hnot,
          hshows.under]

/-- A resource is moved from one directory to another. -/
theorem Disk.Shows.moveResource (hshows : disk.Shows shelf) (hne : source ≠ target) :
    (disk.move (agentPath source ++ [name]) (agentPath target ++ [name])).Shows
      (shelf.carry source target [name]) where
  agents := by
    rw [Disk.get_move_apart (not_prefix_agents _ _) (not_prefix_agents _ _), hshows.agents]
  under folder rest := by
    have hamong : Shelf.Among [name] rest ↔ [name] <+: rest := by simp [Shelf.Among]
    rw [Shelf.carry]
    simp only [hamong]
    split_ifs with hrest htarget hsource
    · obtain ⟨later, rfl⟩ := hrest
      have hapart : ¬ agentPath source ++ [name] <+: agentPath target ++ [name] := by
        rw [prefix_agentPath_append]
        exact fun hsame => hne hsame.1.symm
      have hapart' : ¬ agentPath target ++ [name] <+: agentPath source ++ [name] := by
        rw [prefix_agentPath_append]
        exact fun hsame => hne hsame.1
      rw [htarget, ← List.append_assoc, Disk.get_move_below hapart hapart', List.append_assoc,
        hshows.under]
    · apply Disk.get_move_source
      · exact prefix_agentPath_append.mpr ⟨hsource, hrest⟩
      · exact fun hbegins => htarget (prefix_agentPath_append.mp hbegins).1
    · rw [Disk.get_move_apart, hshows.under]
      · exact fun hbegins => hsource (prefix_agentPath_append.mp hbegins).1
      · exact fun hbegins => htarget (prefix_agentPath_append.mp hbegins).1
    · rw [Disk.get_move_apart, hshows.under]
      · exact fun hbegins => hrest (prefix_agentPath_append.mp hbegins).2
      · exact fun hbegins => hrest (prefix_agentPath_append.mp hbegins).2

theorem Disk.Shows.put (hshows : disk.Shows shelf) {rest : Path} {node : Node} :
    (disk.put (agentPath name ++ rest) node).Shows (shelf.place name rest node) where
  agents := by
    rw [Disk.get_put, if_neg (agentPath_append_ne name rest).symm, hshows.agents]
  under folder query := by
    rw [Disk.get_put, Shelf.place]
    have hsame : agentPath folder ++ query = agentPath name ++ rest ↔
        folder = name ∧ query = rest := by simp [agentPath]
    simp only [hsame]
    split_ifs
    · rfl
    · exact hshows.under folder query

end Steps

/-! ## Steps that fail -/

section Failing

variable {disk : Disk} {shelf : Shelf} {fault : Option (Fault DiskStep Wreck)}
  {source target name : String}

theorem ensures_diskStep {A : Type} {drive : DiskDrive} {operation : DiskStep}
    {change : Disk → Option (A × Disk)} {spoil : Wreck → Disk → Disk}
    {post : A → DiskDrive → Prop} {failed : DiskError E → DiskDrive → Prop}
    {stopped : DiskDrive → Prop}
    (hfault : ∀ wreck, Hits drive.fault operation →
      failed .disk ⟨spoil wreck drive.state, none⟩ ∧ stopped ⟨spoil wreck drive.state, none⟩)
    (hrefused : ¬ Hits drive.fault operation → change drive.state = none → failed .disk drive)
    (hchange : ¬ Hits drive.fault operation → ∀ value state,
      change drive.state = some (value, state) → post value { drive with state }) :
    Faulty.ensures (Faulty.step operation .disk change spoil) drive post failed stopped := by
  apply Faulty.ensures_step
  · intro struck hstrikes
    obtain ⟨hfailed, hstopped⟩ := hfault struck.wreck (hits_of_strikes hstrikes)
    split_ifs
    · exact hstopped
    · exact hfailed
  · intro hstrikes
    exact hrefused (not_hits_of_strikes hstrikes)
  · intro hstrikes
    exact hchange (not_hits_of_strikes hstrikes)

/-- A move that the disk admits can only fail by the fault. -/
theorem ensures_rename {source target : Path}
    (hparent : disk.isDir target.dropLast = true) (hapart : ¬ source <+: target)
    (hadmits : disk.admits source target = true) :
    Faulty.ensures (DiskAction.rename source target : DiskAction E Unit) ⟨disk, fault⟩
      (fun _ after => after = ⟨disk.move source target, fault⟩)
      (fun _ after => after = ⟨disk, none⟩ ∧ fault.isSome)
      fun after => after = ⟨disk, none⟩ ∧ fault.isSome := by
  unfold DiskAction.rename DiskAction.atomic
  have hmoves : disk.isDir target.dropLast = true ∧ ¬ source <+: target ∧
      disk.admits source target = true := ⟨hparent, hapart, hadmits⟩
  apply ensures_diskStep
  · intro wreck hhits
    exact ⟨⟨rfl, hhits.isSome⟩, rfl, hhits.isSome⟩
  · intro _ hrefused
    rw [if_pos hmoves] at hrefused
    cases hrefused
  · intro _ value state hmoved
    rw [if_pos hmoves] at hmoved
    cases hmoved
    rfl

theorem ensures_relocate (hshows : disk.Shows shelf)
    (hne : source ≠ target) (hsource : (shelf source []).isSome)
    (htarget : shelf target [] = none) :
    Faulty.ensures (DiskAction.rename (agentPath source) (agentPath target) : DiskAction E Unit)
      ⟨disk, fault⟩ (fun _ => Goes fault (shelf.relocate source target))
      (fun _ => Misses fault shelf) (Misses fault shelf) := by
  have hadmits : disk.admits (agentPath source) (agentPath target) = true := by
    obtain ⟨node, hnode⟩ := Option.isSome_iff_exists.mp hsource
    simp [Disk.admits, hshows.get, hnode, htarget]
  have hapart : ¬ agentPath source <+: agentPath target := by simp [agentPath, hne]
  apply Faulty.ensures_mono (ensures_rename hshows.isDir_agents hapart hadmits)
  · rintro _ _ rfl
    exact ⟨hshows.move hne, rfl⟩
  · rintro _ _ ⟨rfl, hstruck⟩
    exact ⟨hshows, rfl, hstruck⟩
  · rintro _ ⟨rfl, hstruck⟩
    exact ⟨hshows, rfl, hstruck⟩

theorem ensures_carry (hshows : disk.Shows shelf)
    (hne : source ≠ target) (hsource : (shelf source [name]).isSome)
    (hfolder : shelf target [] = some .dir) (htarget : shelf target [name] = none) :
    Faulty.ensures (DiskAction.rename (agentPath source ++ [name]) (agentPath target ++ [name]) :
      DiskAction E Unit) ⟨disk, fault⟩ (fun _ => Goes fault (shelf.carry source target [name]))
      (fun _ => Misses fault shelf) (Misses fault shelf) := by
  have hadmits : disk.admits (agentPath source ++ [name]) (agentPath target ++ [name]) = true := by
    obtain ⟨node, hnode⟩ := Option.isSome_iff_exists.mp hsource
    simp [Disk.admits, hshows.under, hnode, htarget]
  have hparent : disk.isDir (agentPath target ++ [name]).dropLast = true := by
    rw [List.dropLast_concat, Disk.isDir, hshows.get, hfolder]
    simp
  have hapart : ¬ agentPath source ++ [name] <+: agentPath target ++ [name] := by
    rw [prefix_agentPath_append]
    exact fun hsame => hne hsame.1.symm
  apply Faulty.ensures_mono (ensures_rename hparent hapart hadmits)
  · rintro _ _ rfl
    exact ⟨hshows.moveResource hne, rfl⟩
  · rintro _ _ ⟨rfl, hstruck⟩
    exact ⟨hshows, rfl, hstruck⟩
  · rintro _ ⟨rfl, hstruck⟩
    exact ⟨hshows, rfl, hstruck⟩

end Failing

/-! ## The resources of a directory -/

section Resources

variable {disk : Disk} {shelf : Shelf} {fault : Option (Fault DiskStep Wreck)}
  {source target name : String} {names more moved : List String} {rest : Path}

theorem among_cons :
    Shelf.Among (name :: names) rest ↔ [name] <+: rest ∨ Shelf.Among names rest := by
  simp [Shelf.Among]

theorem not_among_nil : ¬ Shelf.Among names [] := by simp [Shelf.Among]

theorem not_among_empty : ¬ Shelf.Among [] rest := by simp [Shelf.Among]

theorem among_singleton : Shelf.Among names [name] ↔ name ∈ names := by
  simp [Shelf.Among]

/-- Only one name begins a path. -/
theorem among_of_begins (hname : [name] <+: rest) : Shelf.Among names rest ↔ name ∈ names := by
  obtain ⟨later, rfl⟩ := hname
  simp [Shelf.Among]

theorem Shelf.carry_nil : shelf.carry source target [] = shelf := by
  funext folder rest
  rw [Shelf.carry, if_neg (by simp [Shelf.Among])]

theorem Shelf.carry_congr (hnames : ∀ name, name ∈ names ↔ name ∈ more) :
    shelf.carry source target names = shelf.carry source target more := by
  funext folder rest
  have hamong : Shelf.Among names rest ↔ Shelf.Among more rest := by
    simp only [Shelf.Among, hnames]
  rw [Shelf.carry, Shelf.carry, if_congr hamong rfl rfl]

/-- Resources of which neither directory has a node. -/
theorem Shelf.carry_absent (hsource : ∀ rest, [name] <+: rest → shelf source rest = none)
    (htarget : ∀ rest, [name] <+: rest → shelf target rest = none) :
    shelf.carry source target (name :: names) = shelf.carry source target names := by
  funext folder rest
  simp only [Shelf.carry, among_cons]
  by_cases hname : [name] <+: rest
  · by_cases hnames : Shelf.Among names rest
    · simp [hnames]
    · by_cases hfolder : folder = target
      · simp [hname, hnames, hfolder, hsource rest hname, htarget rest hname]
      · by_cases hother : folder = source
        · simp [hname, hnames, hother, hsource rest hname]
        · simp [hname, hnames, hfolder, hother]
  · simp [hname]

theorem Shelf.carry_cons (hnew : name ∉ moved) :
    (shelf.carry source target moved).carry source target [name] =
      shelf.carry source target (name :: moved) := by
  funext folder rest
  simp only [Shelf.carry, among_cons]
  by_cases hname : [name] <+: rest
  · have hmoved : ¬ Shelf.Among moved rest := mt (among_of_begins hname).mp hnew
    simp [hname, hmoved]
  · simp [hname, not_among_empty]

/-- A resource has been taken back. -/
theorem Shelf.carry_back (hne : source ≠ target) (hnew : name ∉ names)
    (htarget : ∀ rest, [name] <+: rest → shelf target rest = none) :
    (shelf.carry source target (name :: names)).carry target source [name] =
      shelf.carry source target names := by
  funext folder rest
  simp only [Shelf.carry, among_cons]
  by_cases hname : [name] <+: rest
  · have hnames : ¬ Shelf.Among names rest := mt (among_of_begins hname).mp hnew
    by_cases hsource : folder = source
    · simp [hname, hnames, hsource]
    · by_cases hfolder : folder = target
      · simp [hname, hnames, hfolder, hne.symm, htarget rest hname]
      · simp [hname, hnames, hsource, hfolder]
  · simp [hname, not_among_empty]

/-- All that went is taken back. -/
theorem Shelf.carry_carry (hne : source ≠ target)
    (htarget : ∀ rest, Among names rest → shelf target rest = none) :
    (shelf.carry source target names).carry target source names = shelf := by
  funext folder rest
  simp only [Shelf.carry]
  by_cases hamong : Among names rest
  · by_cases hsource : folder = source
    · simp [hamong, hsource]
    · by_cases hfolder : folder = target
      · simp [hamong, hfolder, hne.symm, htarget rest hamong]
      · simp [hamong, hsource, hfolder]
  · simp [hamong]

theorem Shelf.relocate_relocate (hne : source ≠ target)
    (htarget : ∀ rest, shelf target rest = none) :
    (shelf.relocate source target).relocate target source = shelf := by
  funext folder rest
  simp only [Shelf.relocate]
  by_cases hsource : folder = source
  · simp [hsource]
  · by_cases hfolder : folder = target
    · simp [hfolder, hne.symm, htarget rest]
    · simp [hsource, hfolder]

variable {E : Type}

/-- What has been moved is moved back. -/
theorem ensures_moveBack (hne : source ≠ target) (hfolder : shelf source [] = some .dir)
    (hempty : ∀ name ∈ moved, ∀ rest, [name] <+: rest → shelf target rest = none)
    (hthere : ∀ name ∈ moved, (shelf source [name]).isSome) (hnodup : moved.Nodup)
    (hshows : disk.Shows (shelf.carry source target moved)) :
    Faulty.ensures (Faulty.each moved fun name => Faulty.ignore
      (DiskAction.rename (agentPath target ++ [name]) (agentPath source ++ [name]) :
        DiskAction E Unit)) ⟨disk, none⟩ (fun _ => Goes none shelf) (fun _ _ => False)
      fun _ => False := by
  induction moved generalizing disk with
  | nil =>
      rw [Shelf.carry_nil] at hshows
      exact ⟨hshows, rfl⟩
  | cons name moved ih =>
      obtain ⟨hnew, hnodup⟩ := List.nodup_cons.mp hnodup
      have hself : [name] <+: [name] := List.prefix_rfl
      have hamong : Shelf.Among (name :: moved) [name] := among_cons.mpr (Or.inl hself)
      rw [Faulty.each, Faulty.ensures_andThen, Faulty.ensures_ignore]
      apply Faulty.ensures_mono (ensures_carry hshows hne.symm ?_ ?_ ?_)
      · intro _ reached hgoes
        obtain ⟨reachedDisk, reachedFault⟩ := reached
        obtain ⟨hreached, rfl⟩ := hgoes
        rw [Shelf.carry_back hne hnew (hempty name List.mem_cons_self)] at hreached
        exact ih (fun other hother => hempty other (List.mem_cons_of_mem name hother))
          (fun other hother => hthere other (List.mem_cons_of_mem name hother)) hnodup hreached
      · intro _ _ hmisses
        exact absurd hmisses.struck (by simp)
      · intro _ hmisses
        exact absurd hmisses.struck (by simp)
      · rw [Shelf.carry, if_pos hamong, if_pos rfl]
        exact hthere name List.mem_cons_self
      · rw [Shelf.carry, if_neg not_among_nil, hfolder]
      · rw [Shelf.carry, if_pos hamong, if_neg hne, if_pos rfl]

/-- All the resources are moved, or none is. -/
theorem ensures_moveResources (hne : source ≠ target)
    (hsource : shelf source [] = some .dir) (htarget : shelf target [] = some .dir)
    (hempty : ∀ name ∈ names ++ moved, ∀ rest, [name] <+: rest → shelf target rest = none)
    (htree : ∀ name, shelf source [name] = none → ∀ rest, [name] <+: rest →
      shelf source rest = none)
    (hthere : ∀ name ∈ moved, (shelf source [name]).isSome) (hnodup : (names ++ moved).Nodup)
    (hshows : disk.Shows (shelf.carry source target moved)) :
    Faulty.ensures (DiskAction.moveResources (agentPath source) (agentPath target) moved names :
      DiskAction E Unit) ⟨disk, fault⟩
      (fun _ => Goes fault (shelf.carry source target (names ++ moved)))
      (fun _ => Misses fault shelf)
      fun after => fault.isSome ∧ ∃ part, after.state.Shows (shelf.carry source target part) := by
  induction names generalizing disk fault moved with
  | nil => exact ⟨hshows, rfl⟩
  | cons name names ih =>
      rw [List.cons_append] at hempty hnodup
      obtain ⟨hnew, hrest⟩ := List.nodup_cons.mp hnodup
      have hunmoved : name ∉ moved := fun hmoved => hnew (List.mem_append_right _ hmoved)
      have hself : [name] <+: [name] := List.prefix_rfl
      have hkept : ¬ Shelf.Among moved [name] := mt among_singleton.mp hunmoved
      have hhere : (shelf.carry source target moved) source [name] = shelf source [name] := by
        rw [Shelf.carry, if_neg hkept]
      rw [DiskAction.moveResources]
      simp only [DiskAction.has, Faulty.ensures_bind, Faulty.ensures_reads, Disk.has,
        hshows.under, hhere]
      by_cases hexists : (shelf source [name]).isSome = true
      · rw [if_pos hexists, Faulty.ensures_bind, Faulty.ensures_handle]
        apply Faulty.ensures_mono (ensures_carry hshows hne ?_ ?_ ?_)
        · intro _ reached hgoes
          obtain ⟨reachedDisk, reachedFault⟩ := reached
          obtain ⟨hreached, rfl⟩ := hgoes
          rw [Shelf.carry_cons hunmoved] at hreached
          have hmem : ∀ other, other ∈ names ++ name :: moved ↔ other ∈ name :: names ++ moved := by
            intro other
            simp [or_left_comm]
          rw [← Shelf.carry_congr hmem]
          apply ih _ _ _ hreached
          · intro other hother
            exact hempty other ((hmem other).mp hother)
          · intro other hother
            rcases List.mem_cons.mp hother with rfl | hmoved
            · exact hexists
            · exact hthere other hmoved
          · exact List.nodup_middle.mpr hnodup
        · intro _ reached hmisses
          obtain ⟨reachedDisk, reachedFault⟩ := reached
          obtain ⟨hreached, rfl, hstruck⟩ := hmisses
          have hmoved : ∀ other ∈ moved, ∀ rest, [other] <+: rest → shelf target rest = none :=
            fun other hother =>
              hempty other (List.mem_cons_of_mem name (List.mem_append_right names hother))
          rw [Faulty.ensures_bind]
          apply Faulty.ensures_mono (ensures_moveBack hne hsource hmoved hthere
            (List.nodup_append.mp hrest).2.1 hreached)
          · intro _ back hback
            exact ⟨hback.shows, hback.fault_eq, hstruck⟩
          · exact fun _ _ hfalse => hfalse.elim
          · exact fun _ hfalse => hfalse.elim
        · exact fun _ hmisses => ⟨hmisses.struck, moved, hmisses.shows⟩
        · rw [hhere]
          exact hexists
        · rw [Shelf.carry, if_neg not_among_nil, htarget]
        · rw [Shelf.carry, if_neg hkept]
          exact hempty name List.mem_cons_self [name] hself
      · rw [if_neg hexists]
        have hnone : shelf source [name] = none := Option.not_isSome_iff_eq_none.mp hexists
        rw [List.cons_append, Shelf.carry_absent (htree name hnone)
          (hempty name List.mem_cons_self)]
        exact ih (fun other hother => hempty other (List.mem_cons_of_mem name hother))
          hthere hrest hshows

theorem ensures_moveLocal (hshows : disk.Shows shelf)
    (hne : source ≠ target) (hsource : shelf source [] = some .dir)
    (htarget : shelf target [] = some .dir)
    (hempty : ∀ name ∈ localResources, ∀ rest, [name] <+: rest → shelf target rest = none)
    (htree : ∀ name, shelf source [name] = none → ∀ rest, [name] <+: rest →
      shelf source rest = none) :
    Faulty.ensures (DiskAction.moveResources (agentPath source) (agentPath target) []
        localResources : DiskAction E Unit) ⟨disk, fault⟩
      (fun _ => Goes fault (shelf.carry source target localResources))
      (fun _ => Misses fault shelf)
      fun after => fault.isSome ∧ ∃ part, after.state.Shows (shelf.carry source target part) := by
  have hstart : disk.Shows (shelf.carry source target []) := by
    rw [Shelf.carry_nil]
    exact hshows
  apply Faulty.ensures_mono (ensures_moveResources hne hsource htarget ?_ htree ?_ ?_
    hstart)
  · intro _ after hafter
    rw [List.append_nil] at hafter
    exact hafter
  · exact fun _ _ hmisses => hmisses
  · exact fun _ hstopped => hstopped
  · rw [List.append_nil]
    exact hempty
  · intro name hname
    cases hname
  · decide

end Resources

end Mews
