/-
# `Sardeenz.Runners.Paths` — the paths of models

The control plane checks with `isContainedIn` (`utils/path-containment.ts`) that a path resolves "to
somewhere strictly inside `root`", and the launcher of the worker checks it again
(`validateModelPath`, `apptainer-launcher.ts`).  Both compare the texts:

    resolve(candidate).startsWith(resolve(root) + sep)

which is `//` for the root of the file system.

**Proved here.**  What it is for a path to be contained (`contained_iff`).
-/
import Mathlib.Data.List.TakeWhile

namespace Sardeenz.Runners.Paths

open List

def pushSegment (segs : List (List Char)) (seg : List Char) : List (List Char) :=
  if seg = [] ∨ seg = ['.'] then segs else if seg = ['.', '.'] then segs.dropLast
  else segs ++ [seg]

/-- The segments of `resolve`, in a working directory. -/
def resolved (cwd path : List Char) : List (List Char) :=
  ((if path.head? = some '/' then path else cwd ++ '/' :: path).splitOn '/').foldl pushSegment []

/-- `resolve`. -/
def resolve (cwd path : List Char) : List Char :=
  match resolved cwd path with
  | [] => ['/']
  | segs => segs.flatMap ('/' :: ·)

/-- `isContainedIn`, with `sep`. -/
def isContainedIn (cwd candidate root : List Char) : Bool :=
  candidate.head? = some '/' ∧ resolve cwd root ++ ['/'] <+: resolve cwd candidate

/-- The errors of `validateModelPath`, before it asks the file system. -/
inductive PathError where
  | notAbsolute (modelPath : List Char)
  | escapes (root modelPath : List Char)
deriving DecidableEq

def validateModelPath (cwd weightsDir modelPath : List Char) : Option PathError :=
  if modelPath.head? ≠ some '/' then some (.notAbsolute modelPath)
  else if ¬ resolve cwd weightsDir ++ ['/'] <+: resolve cwd modelPath then
    some (.escapes (resolve cwd weightsDir) modelPath)
  else none

theorem not_mem_of_mem_splitOn {path seg : List Char} (h : seg ∈ path.splitOn '/') : '/' ∉ seg := by
  induction path generalizing seg with
  | nil => simp_all
  | cons c path ih =>
    rw [splitOn_cons_eq_if_modifyHead] at h
    cases hs : path.splitOn '/' with
    | nil => exact absurd hs (splitOn_ne_nil '/' path)
    | cons first rest => grind [modifyHead_cons]

/-- A segment that is kept has a character, and no slash. -/
def IsSegment (seg : List Char) : Prop := '/' ∉ seg ∧ seg ≠ []

theorem isSegment_resolved (cwd path : List Char) : ∀ seg ∈ resolved cwd path, IsSegment seg := by
  refine foldlRecOn (motive := fun segs => ∀ seg ∈ segs, IsSegment seg) _ pushSegment (by simp)
    fun segs hsegs part hpart => ?_
  have hslash := not_mem_of_mem_splitOn hpart
  have hsub := dropLast_subset segs
  grind [pushSegment, IsSegment]

/-- One segment is compared at a time. -/
theorem prefix_segment {a b x y : List Char} (ha : '/' ∉ a) (hb : '/' ∉ b)
    (hy : ∀ c ∈ y.head?, c = '/') : b ++ '/' :: x <+: a ++ y ↔ b = a ∧ '/' :: x <+: y := by
  induction b generalizing a with
  | nil => cases a <;> grind
  | cons d b ih =>
    cases a with
    | nil =>
      have : d ≠ '/' := by grind
      cases y <;> simp_all [cons_prefix_cons]
    | cons c a => grind

theorem prefix_flatMap {segs root : List (List Char)} (hs : ∀ seg ∈ segs, IsSegment seg)
    (hr : ∀ seg ∈ root, IsSegment seg) :
    root.flatMap ('/' :: ·) ++ ['/'] <+: segs.flatMap ('/' :: ·) ↔ root <+: segs ∧ root ≠ segs := by
  induction root generalizing segs with
  | nil => cases segs <;> simp [cons_prefix_cons]
  | cons b root ih =>
    cases segs with
    | nil => simp
    | cons a segs =>
      have hrest : ∃ x, root.flatMap ('/' :: ·) ++ ['/'] = '/' :: x := by cases root <;> simp
      obtain ⟨x, hx⟩ := hrest
      have hy : ∀ c ∈ (segs.flatMap ('/' :: ·)).head?, c = '/' := by cases segs <;> simp
      rw [forall_mem_cons] at hs hr
      have ih := ih hs.2 hr.2
      simp only [flatMap_cons, cons_append, append_assoc, cons_prefix_cons, hx] at ih ⊢
      rw [prefix_segment hs.1.1 hr.1.1 hy]
      grind

/-- The candidate is absolute and its segments extend those of the root, of which there are some;
and the worker's check accepts the same. -/
theorem contained_iff (cwd candidate root : List Char) :
    (isContainedIn cwd candidate root ↔ candidate.head? = some '/' ∧ resolved cwd root ≠ [] ∧
      resolved cwd root <+: resolved cwd candidate ∧ resolved cwd root ≠ resolved cwd candidate) ∧
    (validateModelPath cwd root candidate = none ↔ isContainedIn cwd candidate root) := by
  have hc := isSegment_resolved cwd candidate
  have hr := isSegment_resolved cwd root
  have hprefix : resolve cwd root ++ ['/'] <+: resolve cwd candidate ↔ resolved cwd root ≠ [] ∧
      resolved cwd root <+: resolved cwd candidate ∧ resolved cwd root ≠ resolved cwd candidate := by
    unfold resolve
    cases hroot : resolved cwd root with
    | nil =>
      cases hcand : resolved cwd candidate with
      | nil => simp
      | cons a as =>
        obtain ⟨hslash, hne⟩ := hc a (by simp [hcand])
        cases a with
        | nil => contradiction
        | cons c a => simp_all [cons_prefix_cons]
    | cons b bs =>
      cases hcand : resolved cwd candidate with
      | nil => simp [cons_prefix_cons]
      | cons a as => exact (prefix_flatMap (hcand ▸ hc) (hroot ▸ hr)).trans (by simp)
  simp only [isContainedIn, validateModelPath]
  grind

/-- Nothing is contained in the root of the file system. -/
theorem root_contains_nothing :
    isContainedIn [] "/models/m".toList ['/'] = false ∧ resolved [] ['/'] = [] ∧
      resolved [] "/models/m".toList = ["models".toList, ['m']] := by
  decide +kernel

end Sardeenz.Runners.Paths
