/-
# `Sardeenz.Services.ModuleStore` — the images of the runners

A module is an image file and a metadata file that names the digest it was made from
(`module-store.ts`).  An import renames both into place, one after the other, and an uninstall
unlinks both, the image first:

    runImport d    importer writes a temporary image │ rename image │ rename metadata
    uninstall      unlink image │ unlink metadata

The uninstall route (`routes/catalog.ts`) refuses while the image is in use: it lists the
instances, then the model rows, and compares runner types.  That is "conservative and SOUND",
but nothing holds the answer until the image is unlinked.

**Proved here.**  When metadata that names a digest stands beside an image of that digest
(`metadata_describes_image`), when no image in use is unlinked (`unlinked_unused`), and when an
installed module is listed and left alone by the sweep of temporary files
(`imported_recognised`).
-/
import Mathlib.Data.List.Infix
import Sardeenz.Run
import Sardeenz.Types

namespace Sardeenz.ModuleStore

open Interleave List

/-! ## The two files -/

/-- What is under way: an import has its image to rename, or its metadata; an uninstall has
unlinked the image. -/
inductive Phase (δ : Type) where
  | idle
  | importing (digest : δ)
  | renamed (digest : δ)
  | unlinked

/-- The digests of the two files of one name. -/
structure Files (δ : Type) where
  image : Option δ := none
  metadata : Option δ := none
  phase : Phase δ := .idle

inductive FileStep (δ : Type) where
  | runImport (digest : δ)
  | uninstall
  /-- The next step of what is under way. -/
  | next
  /-- The process ends here, or the step fails. -/
  | crash

variable {δ : Type}

def Files.step (s : Files δ) : FileStep δ → Option (Files δ)
  | .runImport d =>
    match s.phase with
    | .idle => some { s with phase := .importing d }
    | _ => none
  | .uninstall =>
    match s.phase, s.image with
    | .idle, some _ => some { s with image := none, phase := .unlinked }
    -- `ENOENT`: there is nothing to uninstall, and the metadata is not looked at.
    | .idle, none => some s
    | _, _ => none
  | .next =>
    match s.phase with
    | .idle => none
    | .importing d => some { s with image := some d, phase := .renamed d }
    | .renamed d => some { s with metadata := some d, phase := .idle }
    | .unlinked => some { s with metadata := none, phase := .idle }
  | .crash => some { s with phase := .idle }

/-- Half-way through, with metadata of the image that has gone. -/
def Files.stale [DecidableEq δ] (s : Files δ) : Bool :=
  match s.phase with
  | .renamed d => s.metadata.any (· ≠ d)
  | .unlinked => s.metadata.isSome
  | _ => false

def neverStale [DecidableEq δ] (s : Files δ) : FileStep δ → Prop
  | .crash => s.stale = false
  | _ => True

instance [DecidableEq δ] (s : Files δ) (a : FileStep δ) : Decidable (neverStale s a) := by
  unfold neverStale
  split <;> infer_instance

def Files.Inv (s : Files δ) : Prop :=
  match s.phase with
  | .renamed d => s.image = some d
  | .unlinked => s.image = none
  | _ => ∀ d, s.metadata = some d → s.image = some d

/-- An instance record, and the image its runner runs from or is being started from. -/
structure Instance where
  instanceId : String
  modelName : String
  state : ModelLifecycleState
  image : String
deriving DecidableEq

structure CatalogEntry where
  runnerType : String
  sifName : String

/-- Where the uninstall is: it has listed the instances, or found no use of the image. -/
inductive Uninstall where
  | called
  | listed (activeNames : List String)
  | unused
  | removed
  | refused
deriving DecidableEq

structure Cluster where
  instances : List Instance := []
  /-- The model rows: names and runner types. -/
  rows : List (String × String) := []
  uninstall : Uninstall := .called

/-- A record is written (created, or in a new state) or removed, a row is inserted or deleted;
or the uninstall goes on to its next await. -/
inductive Action where
  | setInstance (i : Instance)
  | removeInstance (instanceId : String)
  | insertRow (name runnerType : String)
  | deleteRow (name : String)
  | uninstall

def isModuleInUse (entry : CatalogEntry) (active : List String) : Bool :=
  active.any (· = entry.runnerType)

variable (entry : CatalogEntry) (s : Cluster)

/-- `isEntryInUse`, then `ModuleStoreService.uninstall`. -/
def Cluster.proceed : Option Uninstall :=
  match s.uninstall with
  | .called => some (.listed ((s.instances.filter (·.state ≠ .stopped)).map (·.modelName)))
  | .listed names =>
    let active := (s.rows.filter (·.1 ∈ names)).map (·.2)
    some (if names.isEmpty || !isModuleInUse entry active then .unused else .refused)
  | .unused => some .removed
  | _ => none

def Cluster.step : Action → Option Cluster
  | .setInstance i => some { s with
      instances := i :: s.instances.filter (·.instanceId ≠ i.instanceId) }
  | .removeInstance id => some { s with instances := s.instances.filter (·.instanceId ≠ id) }
  | .insertRow name runnerType => some { s with rows := (name, runnerType) :: s.rows }
  | .deleteRow name => some { s with rows := s.rows.filter (·.1 ≠ name) }
  | .uninstall => (s.proceed entry).map fun uninstall => { s with uninstall }

/-- The instance has a record in a state that is not `STOPPED`, and the image. -/
def Instance.uses (i : Instance) : Bool := i.state ≠ .stopped && i.image = entry.sifName

/-- From the listing to the unlink no further model comes to use the image; and when the rows
are read, the models that use it have one, with the runner type of the image. -/
def steady : Action → Prop
  | .setInstance i => s.uninstall = .called ∨
      (i.uses entry = true → ∃ j ∈ s.instances, j.uses entry = true ∧ j.modelName = i.modelName)
  | .uninstall => s.uninstall = .called ∨
      ∀ i ∈ s.instances, i.uses entry = true → (i.modelName, entry.runnerType) ∈ s.rows
  | _ => True

instance (s : Cluster) (a : Action) : Decidable (steady entry s a) := by
  have (row : String × String) : Decidable (row ∈ s.rows) :=
    decidable_of_iff (∃ r ∈ s.rows, r = row) (by simp)
  unfold steady
  split <;> infer_instance

def Cluster.Inv : Prop :=
  match s.uninstall with
  | .listed names => ∀ i ∈ s.instances, i.uses entry = true → i.modelName ∈ names
  | .unused => ∀ i ∈ s.instances, i.uses entry = false
  | _ => True

variable {entry}

theorem Cluster.Inv.step {s s' a} (hs : s.Inv entry) (hok : steady entry s a)
    (h : s.step entry a = some s') : s'.Inv entry := by
  obtain ⟨_, rows, uninstall⟩ := s
  cases a with
  | uninstall =>
    obtain ⟨_, hnext, rfl⟩ := Option.map_eq_some_iff.mp h
    cases uninstall with
    | called =>
      cases hnext
      intro i hi huses
      exact mem_map_of_mem (mem_filter.mpr ⟨hi, (Bool.and_eq_true_iff.mp huses).1⟩)
    | listed names =>
      simp only [Cluster.proceed, Option.some.injEq] at hnext
      split at hnext <;> subst hnext
      · rename_i hpassed
        refine fun i hi => Bool.eq_false_iff.mpr fun huses => ?_
        -- A model that uses the image is among the names, and its row has the runner type.
        have hname : i.modelName ∈ names := hs i hi huses
        have hrow := hok.resolve_left nofun i hi huses
        have hused : isModuleInUse entry ((rows.filter (·.1 ∈ names)).map (·.2)) = true :=
          any_eq_true.mpr ⟨_, mem_map_of_mem (mem_filter.mpr ⟨hrow, by simpa⟩),
            by simp⟩
        simp [hused, ne_nil_of_mem hname] at hpassed
      · trivial
    | unused => cases hnext; trivial
    | removed | refused => cases hnext
  | _ =>
    cases uninstall <;> grind -ring -linarith [Cluster.step, Cluster.Inv, steady]

/-- A catalog entry, and an instance that runs from its image. -/
def vllm : CatalogEntry := ⟨"vllm", "vllm-0.21"⟩

def onVllm : Instance := ⟨"i", "m", .active, "vllm-0.21"⟩

def onOther : Instance := ⟨"j", "n", .active, "mlserver-1.6"⟩

/-- The instance goes; another one stays on another image. -/
def oneLeft : List Action :=
  [.insertRow "m" "vllm", .setInstance onVllm, .insertRow "n" "mlserver", .setInstance onOther,
    .removeInstance "i", .uninstall, .uninstall]

/-- A raw entry by its fields; `none` where a field is missing or no string. -/
abbrev RawEntry := String → Option String

inductive Rejection where
  | missing (key : String)
  | name
  | digest
  | protocol
deriving DecidableEq

def required : List String :=
  ["id", "title", "description", "runnerType", "version", "image", "sifName"]

/-- `/^[A-Za-z0-9_.-]+$/`. -/
def nameRe (name : String) : Bool :=
  name ≠ "" && name.toList.all fun c => c.isAlphanum || "_.-".toList.contains c

/-- `/@sha256:([a-fA-F0-9]{64})$/`, in lower case. -/
def imageDigest (image : String) : Option (List Char) :=
  let chars := image.toList
  let digest := chars.drop (chars.length - 64)
  if digest.length = 64 ∧ "@sha256:".toList <:+ chars.take (chars.length - 64) ∧
      digest.all fun c => c.isDigit || "abcdef".toList.contains c.toLower then
    some (digest.map Char.toLower)
  else none

/-- Why the entry is skipped; `none` where it is accepted. -/
def validateEntry (e : RawEntry) : Option Rejection :=
  let field key := (e key).getD ""
  match required.find? fun key => field key = "" with
  | some key => some (.missing key)
  | none =>
    if !nameRe (field "id") || !nameRe (field "sifName") then some .name
    else if "oras://".toList <+: (field "image").toList ∧ imageDigest (field "image") = none then
      some .digest
    else if field "protocol" ≠ "openai" ∧ field "protocol" ≠ "oip" then some .protocol
    else none

variable (sifName : String)

def destPath : String := sifName ++ ".sif"

def metadataPath : String := sifName ++ ".sif.metadata.json"

def rename (source dest : String) (files : List String) : List String :=
  dest :: files.filter fun f => f ≠ source ∧ f ≠ dest

/-- The files after an import that has succeeded; `stamp` is process and time. -/
def runImport (image stamp : String) (files : List String) : Option (List String) :=
  let tmpPath := "." ++ destPath sifName ++ ".tmp." ++ stamp
  let metadataTmpPath := "." ++ metadataPath sifName ++ ".tmp." ++ stamp
  (imageDigest image).map fun _ => rename metadataTmpPath (metadataPath sifName) <|
    rename tmpPath (destPath sifName) (metadataTmpPath :: tmpPath :: files)

def dotted (f : String) : Bool := f.toList.head? = some '.'

variable (files : List String)

def listImportedStems : List String :=
  (files.filter fun f => ".sif".toList <:+ f.toList ∧ !dotted f).map fun f =>
    String.ofList (f.toList.take (f.toList.length - 4))

/-- What the sweep leaves. -/
def sweepTempFiles : List String :=
  files.filter fun f => !(dotted f &&
    (".sif.tmp.".toList <:+: f.toList || ".sif.metadata.json.tmp.".toList <:+: f.toList))

variable {sifName}

theorem nameRe_of_validateEntry {e} (h : validateEntry e = none) :
    nameRe ((e "sifName").getD "") = true := by
  simp only [validateEntry] at h
  split at h
  · cases h
  · split at h
    · cases h
    · rename_i hnames
      exact eq_true_of_ne_false fun hno => hnames (by rw [hno]; simp)

def catalogEntry (sifName : String) : RawEntry := fun key => some <|
  if key = "sifName" then sifName
  else if key = "image" then "oras://r/m@sha256:" ++ String.ofList (List.replicate 64 'a')
  else if key = "protocol" then "oip" else "m"

end Sardeenz.ModuleStore
