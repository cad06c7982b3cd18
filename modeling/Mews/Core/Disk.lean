import Mews.Core.Faults
import Mathlib.Data.Finset.Sort
import Mathlib.Data.String.Basic

/-!
# Files and directories

A disk is a table of nodes by their paths.  The operations on it are steps that can fail,
and each is refused where the disk does not admit it.
-/

namespace Mews

/-- Where a node stands, from the root directory down. -/
abbrev Path := List String

inductive Node where
  | file (text : String)
  /-- A file that is not UTF-8. -/
  | blob
  | dir
  deriving DecidableEq

/-- Later rows of a path are shadowed. -/
structure Disk where
  nodes : List (Path × Node)
  deriving DecidableEq

/-- What a step that fails leaves half done. -/
structure Wreck where
  /-- The text of a file that was being written, if it was created. -/
  written : Option String
  /-- What was removed of a directory. -/
  removed : Path → Bool

inductive DiskStep where
  | readFile (path : Path)
  | write (path : Path)
  | createDir (path : Path)
  | rename (source target : Path)
  | sync (path : Path)
  | removeDirAll (path : Path)
  | readDir (path : Path)
  deriving DecidableEq

/-- A failure of the disk, or of what is done with it. -/
inductive DiskError (E : Type) where
  | disk
  | bail (text : String)
  | of (error : E)
  deriving DecidableEq

abbrev DiskAction (E A : Type) := Faulty DiskStep Wreck Disk (DiskError E) A

abbrev DiskDrive := Drive DiskStep Wreck Disk

section Rows

variable {K V : Type} [BEq K] [LawfulBEq K] [DecidableEq K] {rows : List (K × V)} {key : K}

theorem lookup_cons_eq (row : K × V) :
    (row :: rows).lookup key = if key = row.1 then some row.2 else rows.lookup key := by
  rw [List.lookup_cons]
  by_cases hkey : key = row.1
  · simp [hkey]
  · rw [if_neg hkey, beq_false_of_ne hkey]

theorem lookup_filter_key (keep : K → Bool) :
    (rows.filter fun row => keep row.1).lookup key =
      if keep key then rows.lookup key else none := by
  induction rows with
  | nil => simp
  | cons row rows ih =>
      rw [List.filter_cons]
      split_ifs with hrow hkey hkey
      · rw [lookup_cons_eq, lookup_cons_eq, ih, if_pos hkey]
      · have hne : key ≠ row.1 := by
          rintro rfl
          exact hkey hrow
        rw [lookup_cons_eq, if_neg hne, ih, if_neg hkey]
      · have hne : key ≠ row.1 := by
          rintro rfl
          exact hrow hkey
        rw [lookup_cons_eq, if_neg hne, ih, if_pos hkey]
      · rw [ih, if_neg hkey]

/-- A row is found under its new key where no other row comes. -/
theorem lookup_map_key {rekey : K → K} {target : K}
    (hkey : ∀ row ∈ rows, rekey row.1 = target ↔ row.1 = key) :
    (rows.map fun row => (rekey row.1, row.2)).lookup target = rows.lookup key := by
  induction rows with
  | nil => rfl
  | cons row rows ih =>
      have hrow := hkey row List.mem_cons_self
      have hrest := ih fun other hother => hkey other (List.mem_cons_of_mem row hother)
      rw [List.map_cons, lookup_cons_eq, lookup_cons_eq, hrest]
      simp only [eq_comm (a := target), eq_comm (a := key), hrow]

omit [DecidableEq K] in
theorem lookup_eq_none_of_key (hkey : ∀ row ∈ rows, row.1 ≠ key) : rows.lookup key = none := by
  rw [List.lookup_eq_none_iff]
  intro row hrow
  simpa using (hkey row hrow).symm

theorem mem_keys_iff_lookup : key ∈ rows.map Prod.fst ↔ (rows.lookup key).isSome := by
  induction rows with
  | nil => simp
  | cons row rows ih =>
      rw [List.map_cons, List.mem_cons, ih, lookup_cons_eq]
      split_ifs with hkey
      · simp [hkey]
      · simp [hkey]

end Rows

namespace Disk

variable (disk : Disk)

def get (path : Path) : Option Node := disk.nodes.lookup path

/-- `Path::exists`. -/
def has (path : Path) : Bool := (disk.get path).isSome

def isDir (path : Path) : Bool := path = [] || disk.get path = some .dir

def put (path : Path) (node : Node) : Disk := { nodes := (path, node) :: disk.nodes }

def remove (path : Path) : Disk := { nodes := disk.nodes.filter fun row => !path.isPrefixOf row.1 }

/-- The path of what stands below `source` once it is below `target`. -/
def rebase (source target path : Path) : Path :=
  if source <+: path then target ++ path.drop source.length else path

def move (source target : Path) : Disk :=
  { nodes := (disk.remove target).nodes.map fun row => (rebase source target row.1, row.2) }

/-- The names in a directory. -/
def children (path : Path) : Finset String :=
  (disk.nodes.filterMap fun row =>
    if path <+: row.1 then
      match row.1.drop path.length with
      | [name] => some name
      | _ => none
    else none).toFinset

/-- Whether `rename` can put `source` in the place of `target`. -/
def admits (source target : Path) : Bool :=
  match disk.get source, disk.get target with
  | some _, none => true
  | some .dir, some .dir => disk.children target = ∅
  | some .dir, some _ | none, _ | some _, some .dir => false
  | some _, some _ => true

section Lookups

variable {disk : Disk} {path source target query : Path} {node : Node}

theorem get_put : (disk.put path node).get query = if query = path then some node
    else disk.get query := lookup_cons_eq _

theorem get_remove : (disk.remove path).get query =
    if path <+: query then none else disk.get query := by
  rw [get, remove, lookup_filter_key fun key => !path.isPrefixOf key]
  by_cases hbegins : path <+: query
  · simp [hbegins, List.isPrefixOf_iff_prefix.mpr hbegins]
  · have hfalse : path.isPrefixOf query = false := by
      rw [← Bool.not_eq_true, List.isPrefixOf_iff_prefix]
      exact hbegins
    simp [hbegins, hfalse, get]

theorem mem_remove {row : Path × Node} (hrow : row ∈ (disk.remove path).nodes) :
    ¬ path <+: row.1 := by
  have hkept := (List.mem_filter.mp hrow).2
  simpa [← List.isPrefixOf_iff_prefix] using hkept

theorem rebase_below (rest : Path) : rebase source target (source ++ rest) = target ++ rest := by
  rw [rebase, if_pos (List.prefix_append _ _), List.drop_left]

/-- What stood below `source` stands below `target`. -/
theorem get_move_below (hsource : ¬ source <+: target) (htarget : ¬ target <+: source)
    (rest : Path) : (disk.move source target).get (target ++ rest) = disk.get (source ++ rest) := by
  have hapart : ¬ target <+: source ++ rest := by
    intro hbegins
    rcases List.prefix_or_prefix_of_prefix hbegins (List.prefix_append source rest) with h | h
    · exact htarget h
    · exact hsource h
  have hkeys : ∀ row ∈ (disk.remove target).nodes,
      rebase source target row.1 = target ++ rest ↔ row.1 = source ++ rest := by
    intro row hrow
    constructor
    · intro hrebased
      by_cases hbegins : source <+: row.1
      · obtain ⟨later, hlater⟩ := hbegins
        rw [← hlater, rebase_below, List.append_cancel_left_eq] at hrebased
        rw [← hlater, hrebased]
      · rw [rebase, if_neg hbegins] at hrebased
        exact absurd ⟨rest, hrebased.symm⟩ (mem_remove hrow)
    · intro hrow
      rw [hrow, rebase_below]
  rw [get, move, lookup_map_key hkeys]
  change (disk.remove target).get _ = _
  rw [get_remove, if_neg hapart]

/-- Nothing is left below `source`. -/
theorem get_move_source (hquery : source <+: query)
    (htarget : ¬ target <+: query) : (disk.move source target).get query = none := by
  apply lookup_eq_none_of_key
  intro row hrow hkey
  obtain ⟨before, hbefore, rfl⟩ := List.mem_map.mp hrow
  by_cases hbegins : source <+: before.1
  · simp only [rebase, if_pos hbegins] at hkey
    exact htarget ⟨_, hkey⟩
  · simp only [rebase, if_neg hbegins] at hkey
    exact hbegins (hkey ▸ hquery)

theorem get_move_apart (hsource : ¬ source <+: query) (htarget : ¬ target <+: query) :
    (disk.move source target).get query = disk.get query := by
  have hkeys : ∀ row ∈ (disk.remove target).nodes,
      rebase source target row.1 = query ↔ row.1 = query := by
    intro row hrow
    by_cases hbegins : source <+: row.1
    · rw [rebase, if_pos hbegins]
      constructor
      · intro hkey
        exact absurd ⟨_, hkey⟩ htarget
      · intro hkey
        exact absurd (hkey ▸ hbegins) hsource
    · rw [rebase, if_neg hbegins]
  rw [get, move, lookup_map_key hkeys]
  change (disk.remove target).get _ = _
  rw [get_remove, if_neg htarget]

theorem mem_children {name : String} :
    name ∈ disk.children path ↔ disk.has (path ++ [name]) = true := by
  rw [children, List.mem_toFinset, List.mem_filterMap, has, get, ← mem_keys_iff_lookup,
    List.mem_map]
  constructor
  · rintro ⟨row, hrow, hname⟩
    refine ⟨row, hrow, ?_⟩
    split_ifs at hname with hbegins
    obtain ⟨rest, hrest⟩ := hbegins
    rw [← hrest, List.drop_left] at hname
    rw [← hrest]
    match rest, hname with
    | [last], hname => rw [Option.some.inj hname]
  · rintro ⟨row, hrow, hname⟩
    refine ⟨row, hrow, ?_⟩
    rw [hname, if_pos (List.prefix_append _ _), List.drop_left]

end Lookups

end Disk

namespace DiskAction

variable {E A : Type}

/-- A step that changes nothing where it fails. -/
def atomic (operation : DiskStep) (change : Disk → Option (A × Disk)) : DiskAction E A :=
  Faulty.step operation .disk change fun _ disk => disk

def has (path : Path) : DiskAction E Bool := Faulty.reads fun disk => disk.has path

/-- `fs::read_to_string`. -/
def readFile (path : Path) : DiskAction E String :=
  atomic (.readFile path) fun disk =>
    match disk.get path with
    | some (.file text) => some (text, disk)
    | _ => none

/-- `fs::write`. -/
def write (path : Path) (text : String) : DiskAction E Unit :=
  Faulty.step (.write path) .disk
    (fun disk =>
      if disk.isDir path.dropLast ∧ disk.get path ≠ some .dir then
        some ((), disk.put path (.file text))
      else none)
    fun wreck disk =>
      match wreck.written with
      | some text => if disk.get path = some .dir then disk else disk.put path (.file text)
      | none => disk

def createDir (path : Path) : DiskAction E Unit :=
  atomic (.createDir path) fun disk =>
    if disk.isDir path.dropLast ∧ disk.get path = none then some ((), disk.put path .dir) else none

def createDirAll (path : Path) : DiskAction E Unit :=
  Faulty.each path.inits fun part => do
    if ¬ (← Faulty.reads fun disk => disk.isDir part) then createDir part

def rename (source target : Path) : DiskAction E Unit :=
  atomic (.rename source target) fun disk =>
    if disk.isDir target.dropLast ∧ ¬ source <+: target ∧ disk.admits source target then
      some ((), disk.move source target)
    else none

/-- `sync_all` of a file or directory. -/
def sync (path : Path) : DiskAction E Unit :=
  atomic (.sync path) fun disk => if disk.has path then some ((), disk) else none

def removeDirAll (path : Path) : DiskAction E Unit :=
  Faulty.step (.removeDirAll path) .disk
    (fun disk => if disk.get path = some .dir then some ((), disk.remove path) else none)
    fun wreck disk =>
      { nodes := disk.nodes.filter fun row => !(path.isPrefixOf row.1 && wreck.removed row.1) }

def readDir (path : Path) : DiskAction E (Finset String) :=
  atomic (.readDir path) fun disk =>
    if disk.isDir path then some (disk.children path, disk) else none

end DiskAction

end Mews
