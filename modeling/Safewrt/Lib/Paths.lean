/-
  PATHS IN A FILE SYSTEM.

  1. `splitPath` — what stands between the slashes of a path: the components on the way, and the
     last one.

  2. `FileSystem` — directories, and what a name in a directory leads to; ".." and links are names
     like any other.  `resolve` follows a whole path, `place` all of it but the last component.

  3. **`liesIn_iff_direct`** — behind the path of a directory and a slash, a name means an entry of
     this directory, whatever the file system, exactly where nothing before its last component is a
     step.
-/
import Mathlib.Data.List.Basic

namespace Safewrt.Lib

/-! ## The components of a path -/

/-- The components before the last one, and the last one. -/
def splitPath : List UInt8 → List (List UInt8) × List UInt8
  | [] => ([], [])
  | b :: s =>
    if b = 0x2f then ([] :: (splitPath s).1, (splitPath s).2)
    else match splitPath s with
    | ([], last) => ([], b :: last)
    | (c :: cs, last) => ((b :: c) :: cs, last)

/-- A slash ends a component. -/
theorem splitPath_slash (a s : List UInt8) : splitPath (a ++ 0x2f :: s) =
    ((splitPath a).1 ++ (splitPath a).2 :: (splitPath s).1, (splitPath s).2) := by
  induction a with
  | nil => rfl
  | cons b a ih =>
    rw [List.cons_append, splitPath, splitPath, ih]
    by_cases hb : b = 0x2f
    · rw [if_pos hb, if_pos hb, List.cons_append]
    · rw [if_neg hb, if_neg hb]
      cases splitPath a with
      | mk cs last =>
        cases cs with
        | nil => rfl
        | cons c cs => rfl

/-- A component that leads somewhere: not the nothing between two slashes, and not ".". -/
def IsStep (c : List UInt8) : Prop := c ≠ [] ∧ c ≠ [0x2e]

instance (c : List UInt8) : Decidable (IsStep c) := inferInstanceAs (Decidable (_ ∧ _))

/-- A component that can be the name of a file. -/
def IsFileName (c : List UInt8) : Prop := IsStep c ∧ c ≠ [0x2e, 0x2e]

instance (c : List UInt8) : Decidable (IsFileName c) := inferInstanceAs (Decidable (_ ∧ _))

/-! ## File systems -/

/-- Where a path begins, and where a name in a directory leads. -/
structure FileSystem (Dir : Type) where
  root : Dir
  cwd : Dir
  enter : Dir → List UInt8 → Option Dir

namespace FileSystem

variable {Dir : Type} (fs : FileSystem Dir)

/-- One component: "." and nothing at all lead nowhere else, everything else is looked up. -/
def step (d : Dir) (c : List UInt8) : Option Dir :=
  if IsStep c then fs.enter d c else some d

/-- One component after the other. -/
def walk : Dir → List (List UInt8) → Option Dir
  | d, [] => some d
  | d, c :: cs => (fs.step d c).bind fun d => walk d cs

/-- A path that begins with a slash begins at the root. -/
def start (path : List UInt8) : Dir := if path.head? = some 0x2f then fs.root else fs.cwd

/-- The directory of a path; the empty path has none. -/
def resolve (path : List UInt8) : Option Dir :=
  if path = [] then none
  else fs.walk (fs.start path) ((splitPath path).1 ++ [(splitPath path).2])

/-- The directory and the name of the file of a path. -/
def place (path : List UInt8) : Option (Dir × List UInt8) :=
  if IsFileName (splitPath path).2 then
    (fs.walk (fs.start path) (splitPath path).1).map fun d => (d, (splitPath path).2)
  else none

/-- A path is followed component by component, so it can be cut anywhere. -/
theorem walk_append (as bs : List (List UInt8)) : ∀ d : Dir,
    fs.walk d (as ++ bs) = (fs.walk d as).bind fun d => fs.walk d bs := by
  induction as with
  | nil => exact fun _ => rfl
  | cons a as ih =>
    intro d
    rw [List.cons_append, walk, walk, Option.bind_assoc]
    congr 1
    funext d'
    exact ih d'

/-- Components that are no steps lead nowhere. -/
theorem walk_stay {cs : List (List UInt8)} (h : ∀ c ∈ cs, ¬ IsStep c) (d : Dir) :
    fs.walk d cs = some d := by
  induction cs with
  | nil => rfl
  | cons c cs ih =>
    rw [List.forall_mem_cons] at h
    rw [walk, step, if_neg h.1, Option.bind_some, ih h.2]

/-- **A name behind a directory** is looked for from this directory on. -/
theorem place_behind {dir : List UInt8} (hdir : dir ≠ []) (name : List UInt8) :
    fs.place (dir ++ 0x2f :: name) =
      if IsFileName (splitPath name).2 then
        ((fs.resolve dir).bind fun d => fs.walk d (splitPath name).1).map fun d =>
          (d, (splitPath name).2)
      else none := by
  have hstart : fs.start (dir ++ 0x2f :: name) = fs.start dir := by
    obtain ⟨b, s, rfl⟩ := List.exists_cons_of_ne_nil hdir
    rfl
  have hsplit : (splitPath dir).1 ++ (splitPath dir).2 :: (splitPath name).1 =
      ((splitPath dir).1 ++ [(splitPath dir).2]) ++ (splitPath name).1 := by
    rw [List.append_assoc, List.singleton_append]
  rw [place, splitPath_slash, hstart, resolve, if_neg hdir]
  dsimp only
  rw [hsplit, walk_append]

end FileSystem

/-! ## Names that stay where they are -/

/-- In no file system is the file of `path` anywhere but in the directory of `dir`. -/
def LiesIn (dir path : List UInt8) : Prop :=
  ∀ (Dir : Type) (fs : FileSystem Dir) (d : Dir), fs.resolve dir = some d →
    ∀ q, fs.place path = some q → q.1 = d

/-- Nothing before the file name is a step. -/
def Direct (name : List UInt8) : Prop :=
  IsFileName (splitPath name).2 → ∀ c ∈ (splitPath name).1, ¬ IsStep c

instance (name : List UInt8) : Decidable (Direct name) := inferInstanceAs (Decidable (_ → _))

/-- The file system where every name leads to a directory, one level deeper. -/
def levels : FileSystem Nat where
  root := 0
  cwd := 0
  enter n _ := some (n + 1)

/-- In it, a walk counts its steps. -/
theorem levels_walk (cs : List (List UInt8)) : ∀ n : Nat,
    levels.walk n cs = some (n + cs.countP fun c => IsStep c) := by
  induction cs with
  | nil => exact fun _ => rfl
  | cons c cs ih =>
    intro n
    rw [FileSystem.walk, FileSystem.step, List.countP_cons]
    by_cases hc : IsStep c
    · have henter : levels.enter n c = some (n + 1) := rfl
      rw [if_pos hc, henter, Option.bind_some, ih, if_pos (decide_eq_true hc)]
      congr 1
      omega
    · rw [if_neg hc, Option.bind_some, ih, if_neg (by simpa using hc)]
      rfl

/-- **A name lies in a directory**, whatever the file system, exactly where it is direct. -/
theorem liesIn_iff_direct {dir : List UInt8} (hdir : dir ≠ []) (name : List UInt8) :
    LiesIn dir (dir ++ 0x2f :: name) ↔ Direct name := by
  constructor
  · intro h hfile c hc hstep
    obtain ⟨n, hn⟩ : ∃ n, levels.resolve dir = some n := by
      rw [FileSystem.resolve, if_neg hdir]
      exact ⟨_, levels_walk ..⟩
    -- the walk takes a step, so that the file is a level deeper
    have hplace := levels.place_behind hdir name
    rw [if_pos hfile, hn, Option.bind_some, levels_walk, Option.map_some] at hplace
    have hsame := h Nat levels n hn _ hplace
    have hpos : 0 < (splitPath name).1.countP fun c => IsStep c :=
      List.countP_pos_iff.mpr ⟨c, hc, decide_eq_true hstep⟩
    dsimp only at hsame
    exact absurd hsame (Nat.ne_of_gt (Nat.lt_add_of_pos_right hpos))
  · intro h Dir fs d hd q hq
    rw [fs.place_behind hdir, hd, Option.bind_some] at hq
    by_cases hfile : IsFileName (splitPath name).2
    · rw [if_pos hfile, fs.walk_stay (h hfile), Option.map_some] at hq
      rw [← Option.some.inj hq]
    · rw [if_neg hfile] at hq
      exact absurd hq (by simp)

end Safewrt.Lib
