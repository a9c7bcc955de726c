import Sketch.Text.Split

/-!
# Files and folders

A disk is a tree of folders and files, kept as a list of entries under their full paths, together
with the working folder. Path names are read the usual way: parts between slashes, a leading slash
for the root, `.` for the folder itself and `..` for the one above it. Main statement:
`Disk.read_write`, what has been written under a name is read back under it.
-/

namespace Sketch

/-- Why a file cannot be read or written. -/
inductive FileFault where
  /-- there is no such file, or a folder on the way to it is missing -/
  | notFound
  /-- a file stands where a folder is needed -/
  | notFolder
  /-- a folder stands where a file is needed -/
  | isFolder
  /-- the name, or a part of it, is too long -/
  | nameTooLong
  /-- the name contains the character that ends names -/
  | invalidName
  /-- the content is not a text -/
  | notText
  /-- any other reason that the system gives -/
  | other (message : String)
  deriving DecidableEq, Repr

/-- What is said about a fault of a file. -/
def FileFault.message : FileFault → String
  | .notFound => "No such file or directory (os error 2)"
  | .notFolder => "Not a directory (os error 20)"
  | .isFolder => "Is a directory (os error 21)"
  | .nameTooLong => "File name too long (os error 36)"
  | .invalidName => "file name contained an unexpected NUL byte"
  | .notText => "stream did not contain valid UTF-8"
  | .other message => message

/-- A place in the tree: the names on the way from the root, the last one first. -/
abbrev Path := List String

/-- What stands at a place in the tree. -/
inductive Entry where
  | file (content : ByteArray)
  | folder

/-- A tree of folders and files, and the working folder. -/
structure Disk where
  entries : List (Path × Entry)
  home : Path

namespace Disk

/-- What stands at a place. -/
def find? (disk : Disk) (path : Path) : Option Entry :=
  disk.entries.lookup path

/-- Puts an entry at a place, instead of the one that may be there. -/
def put (disk : Disk) (path : Path) (entry : Entry) : Disk :=
  { disk with entries := (path, entry) :: disk.entries.filter (·.1 ≠ path) }

/-- The length in bytes that a part of a name may have. -/
def partLimit : Nat := 255

/-- The length in bytes that a name may have. -/
def nameLimit : Nat := 4095

/-- The place of a part of a name inside a folder. -/
def part (folder : Path) (name : String) : Except FileFault Path :=
  if name.utf8ByteSize ≤ partLimit then .ok (name :: folder) else .error .nameTooLong

/-- Goes through folders. Empty parts do not count. -/
def walk (disk : Disk) : Path → List String → Except FileFault Path
  | folder, [] => .ok folder
  | folder, name :: rest =>
    if name = "" ∨ name = "." then walk disk folder rest
    else if name = ".." then walk disk folder.tail rest
    else
      match part folder name with
      | .error fault => .error fault
      | .ok path =>
        match disk.find? path with
        | none => .error .notFound
        | some (.file _) => .error .notFolder
        | some .folder => walk disk path rest

/-- A name taken apart: the folders on the way, the last part, and whether a slash follows it. -/
structure Route where
  absolute : Bool
  folders : List String
  name : String
  slash : Bool
  deriving DecidableEq, Repr

/-- Takes a name apart. -/
def route (name : String) : Route :=
  let parts := (Text.split '/' name).filter (· ≠ "")
  { absolute := name.toList.head? = some '/'
    folders := parts.dropLast
    name := parts.getLastD ""
    slash := name.toList.getLast? = some '/' }

/-- Whether the last part of a name stands for a folder, whatever is on the disk. -/
def Route.namesFolder (route : Route) : Bool :=
  route.name = "" || route.name = "." || route.name = ".."

/-- The names that no system takes. -/
def checkName (name : String) : Except FileFault Unit :=
  if name.toList.contains '\x00' then .error .invalidName
  else if name = "" then .error .notFound
  else if name.utf8ByteSize ≤ nameLimit then .ok ()
  else .error .nameTooLong

/-- The folder in which the last part of a name is looked up. -/
def folderOf (disk : Disk) (route : Route) : Except FileFault Path :=
  disk.walk (if route.absolute then [] else disk.home) route.folders

/-- The content of a file. -/
def read (disk : Disk) (name : String) : Except FileFault ByteArray := do
  checkName name
  let route := route name
  let folder ← disk.folderOf route
  if route.namesFolder then .error .isFolder
  else
    let path ← part folder route.name
    match disk.find? path with
    | none => .error .notFound
    | some .folder => .error .isFolder
    | some (.file content) => if route.slash then .error .notFolder else .ok content

/-- The place at which a file is written. -/
def target (disk : Disk) (name : String) : Except FileFault Path := do
  checkName name
  let route := route name
  let folder ← disk.folderOf route
  if route.namesFolder || route.slash then .error .isFolder
  else
    let path ← part folder route.name
    match disk.find? path with
    | some .folder => .error .isFolder
    | _ => .ok path

/-- Writes a file, instead of the one that may be there. -/
def write (disk : Disk) (name : String) (content : ByteArray) : Except FileFault Unit × Disk :=
  match disk.target name with
  | .ok path => (.ok (), disk.put path (.file content))
  | .error fault => (.error fault, disk)

/-! ## What has been written is read back -/

@[simp] theorem find?_put_self (disk : Disk) (path : Path) (entry : Entry) :
    (disk.put path entry).find? path = some entry := by
  simp [put, find?]

/-- Taking out one key leaves what is found under the others. -/
theorem lookup_filter_ne {path other : Path} (h : other ≠ path) (entries : List (Path × Entry)) :
    (entries.filter (·.1 ≠ path)).lookup other = entries.lookup other := by
  induction entries with
  | nil => rfl
  | cons e entries ih =>
    obtain ⟨key, value⟩ := e
    by_cases hk : key = path
    · subst hk
      have hne : (other == key) = false := beq_eq_false_iff_ne.2 h
      simp only [List.filter_cons, ne_eq, not_true_eq_false, decide_false, Bool.false_eq_true,
        if_false, List.lookup_cons, hne, ih]
    · simp only [List.filter_cons, ne_eq, hk, not_false_eq_true, decide_true, if_true,
        List.lookup_cons, ih]

/-- `put` changes one place and no other. -/
theorem find?_put_of_ne (disk : Disk) {path other : Path} (entry : Entry) (h : other ≠ path) :
    (disk.put path entry).find? other = disk.find? other := by
  have hne : (other == path) = false := beq_eq_false_iff_ne.2 h
  rw [find?, put, List.lookup_cons, hne]
  exact lookup_filter_ne h disk.entries

/-- A walk through folders goes on the same way after a file has been put where no folder is. -/
theorem walk_put {disk : Disk} {path : Path} {entry : Entry}
    (h : disk.find? path ≠ some .folder) {folder target : Path} {parts : List String}
    (hw : disk.walk folder parts = .ok target) :
    (disk.put path entry).walk folder parts = .ok target := by
  induction parts generalizing folder with
  | nil => exact hw
  | cons name rest ih =>
    rw [walk] at hw ⊢
    split
    · next hn => exact ih (by simpa [hn] using hw)
    · next hn =>
      rw [if_neg hn] at hw
      split
      · next hd => exact ih (by simpa [hd] using hw)
      · next hd =>
        rw [if_neg hd] at hw
        cases hp : part folder name with
        | error fault => simp [hp] at hw
        | ok place =>
          simp only [hp] at hw ⊢
          cases hf : disk.find? place with
          | none => simp [hf] at hw
          | some found =>
            cases found with
            | file content => simp [hf] at hw
            | folder =>
              -- a folder on the way is not where the file is put
              have hne : place ≠ path := by
                rintro rfl
                exact h hf
              simp only [hf] at hw
              rw [find?_put_of_ne disk entry hne, hf]
              exact ih hw

/-- What has been written under a name is read back under it. -/
theorem read_write {disk after : Disk} {name : String} {content : ByteArray}
    (h : disk.write name content = (.ok (), after)) : after.read name = .ok content := by
  rw [write] at h
  cases ht : disk.target name with
  | error fault => simp [ht] at h
  | ok path =>
    simp only [ht, Prod.mk.injEq, true_and] at h
    subst h
    simp only [target, bind, Except.bind] at ht
    cases hc : checkName name with
    | error fault => simp [hc] at ht
    | ok u =>
      simp only [hc] at ht
      cases hf : disk.folderOf (route name) with
      | error fault => simp [hf] at ht
      | ok folder =>
        simp only [hf] at ht
        split at ht
        · cases ht
        · next hn =>
          have hnames : (route name).namesFolder = false := by simp_all
          have hslash : (route name).slash = false := by simp_all
          cases hp : part folder (route name).name with
          | error fault => simp [hp] at ht
          | ok place =>
            simp only [hp] at ht
            split at ht
            · cases ht
            · next hfree =>
              cases ht
              -- the folders on the way are still there
              have hwalk : (disk.put path (.file content)).folderOf (route name) = .ok folder :=
                walk_put hfree hf
              simp [read, bind, Except.bind, hc, hwalk, hnames, hp, hslash]

end Disk

end Sketch
