/-
TestExamples/RJSysUtilDirs.lean

`MakeDirs` of RJCommon/RJSysUtil.cpp, in the POSIX branch.

`MakeDirs` cuts the path at its last separator, makes the directories of the
front, and then the path itself unless `IsDirExist` finds it.  On a tree of
directories and files that is `FileTree.make` on the components of the path
(`MakeDirs_returns`), with one test missing: `IsDirExist` asks whether there is
an entry, not whether it is a directory.  So a file at the end of the path is
taken for a directory, and only there (`makesChain_iff`); in front of another
component it makes the next `mkdir` fail.

A path is a C string.  It is followed as the system does: from the root or the
working directory, with `.`, `..` and empty components.  `mkdir` fails only
where the parent is not a directory or the name is taken, `access` where nothing
is found.
-/
import Mathlib.Data.List.DropRight
import TestExamples.Lib.CString
import TestExamples.Lib.Fields
import TestExamples.Lib.FileTree
import TestExamples.Lib.Loop

namespace TestExamples

/-- A process's view of the file system: its working directory is one. -/
@[ext]
structure FileSystem where
  tree : FileTree (List Byte) (List Byte)
  cwd : List (List Byte)
  cwd_dir : tree.IsDir cwd

namespace FileSystem

/-- `'/'`, on POSIX. -/
def GetFilePathSeparator : Byte := 47

/-- What a piece of a path means. -/
def component (piece : List Byte) : Component (List Byte) :=
  if piece = [] ∨ piece = [46] then .here
  else if piece = [46, 46] then .up
  else .name piece

def components (path : List Byte) : List (Component (List Byte)) :=
  (path.splitOn GetFilePathSeparator).map component

/-- Where a path starts. -/
def start (fs : FileSystem) (path : List Byte) : List (List Byte) :=
  if path.head? = some GetFilePathSeparator then [] else fs.cwd

/-- Where a path leads. -/
def resolve (fs : FileSystem) (path : List Byte) : Option (List (List Byte)) :=
  if path = [] then none else fs.tree.walk (fs.start path) (components path)

def visit (fs : FileSystem) (c : Component (List Byte)) (loc : List (List Byte))
    (h : fs.tree.IsDir loc) : FileSystem where
  tree := fs.tree.visit c loc h
  cwd := fs.cwd
  cwd_dir := FileTree.visit_old h fs.cwd_dir

/-- `access(path, 0)`. -/
def access (fs : FileSystem) (path : List Byte) : Int := if (fs.resolve path).isSome then 0 else -1

/-- `mkdir(path, 0777)`; `none` where it fails.  Separators at the end do not
count. -/
def mkdir (fs : FileSystem) (path : List Byte) : Option FileSystem :=
  let pieces := (path.splitOn GetFilePathSeparator).rdropWhile List.isEmpty
  match pieces.getLast?.map component with
  | some (.name n) =>
      match fs.tree.walk (fs.start path) (pieces.dropLast.map component) with
      | some loc =>
          if h : fs.tree.IsDir loc ∧ fs.tree.entry (n :: loc) = none then
            some (fs.visit (.name n) loc h.1)
          else none
      | none => none
  | _ => none

end FileSystem

namespace RJSysUtil

open FileSystem

def RJ_S_OK : Int := 0
def RJ_S_FALSE : Int := 1

def PathMaxLength : Nat := 1024

def IsDirExist (fs : FileSystem) (path : List Byte) : Bool :=
  let ret := fs.access path
  if ret = -1 then false else true

def MakeDir (fs : FileSystem) (path : List Byte) : Int × FileSystem :=
  match fs.mkdir path with
  | some fs => (RJ_S_OK, fs)
  | none => (RJ_S_FALSE, fs)

/-- `MakeDirs`, with a bound on the depth of its calls. -/
def MakeDirs (fs : FileSystem) (path : List Byte) : Nat → Option (Int × FileSystem)
  | 0 => none
  | fuel + 1 =>
      if path.length = 0 then some (RJ_S_OK, fs)
      else if path.length ≥ PathMaxLength then none -- `Strcpy` leaves `tmp`
      else
        match strrchr path GetFilePathSeparator with
        | some p =>
            (MakeDirs fs (path.take p) fuel).map fun r =>
              if r.1 = RJ_S_OK ∧ ¬ IsDirExist r.2 path then MakeDir r.2 path else r
        | none =>
            if ¬ IsDirExist fs path then some (MakeDir fs path) else some (RJ_S_OK, fs)

/-! ### What it is for -/

/-- `pre` ends before a separator of the path. -/
def Before (pre path : List Byte) : Prop := ∃ rest, path = pre ++ GetFilePathSeparator :: rest

/-- The path names a directory. -/
def NamesDir (fs : FileSystem) (path : List Byte) : Prop :=
  ∃ loc, fs.resolve path = some loc ∧ fs.tree.IsDir loc

/-- What `MakeDirs` is to do.  It returns; if that is `RJ_S_OK` the path and all
that ends before a separator name directories; otherwise there is a first part
of the path that nothing is made of, and every new entry is named by a shorter
one.  The entries that were there stay. -/
structure MakesChain (fs : FileSystem) (path : List Byte) : Prop where
  returns : ∃ r, Returns (MakeDirs fs path) r
  made : ∀ fs', Returns (MakeDirs fs path) (RJ_S_OK, fs') →
    ∀ pre, pre ≠ [] → (pre = path ∨ Before pre path) → NamesDir fs' pre
  stopped : ∀ ret fs', Returns (MakeDirs fs path) (ret, fs') → ret ≠ RJ_S_OK →
    ∃ pre, (pre = path ∨ Before pre path) ∧ fs'.resolve pre = none ∧
      (∀ pre', pre' ≠ [] → Before pre' pre → ∃ loc, fs'.resolve pre' = some loc) ∧
      ∀ loc, fs.tree.entry loc = none → fs'.tree.entry loc ≠ none →
        ∃ pre', Before pre' pre ∧ fs'.resolve pre' = some loc
  kept : ∀ ret fs', Returns (MakeDirs fs path) (ret, fs') →
    ∀ loc e, fs.tree.entry loc = some e → fs'.tree.entry loc = some e

/-- The path leads to a file, and nothing that ends before a separator does. -/
def EndsAtFile (fs : FileSystem) (path : List Byte) : Prop :=
  fs.tree.IsFile (destination (fs.start path) (components path)) ∧
    ∀ pre, pre ≠ [] → Before pre path →
      ¬ fs.tree.IsFile (destination (fs.start pre) (components pre))

/-! ### One level -/

section Level

variable {fs : FileSystem} {path piece : List Byte} {pieces : List (List Byte)}
  {loc l : List (List Byte)}

theorem resolve_eq (hpath : path ≠ []) :
    fs.resolve path = fs.tree.walk (fs.start path) (components path) := if_neg hpath

theorem isDirExist_iff : IsDirExist fs path = true ↔ fs.resolve path ≠ none := by
  unfold IsDirExist access
  cases fs.resolve path with
  | none => simp
  | some loc => simp

theorem visit_eq_self {c : Component (List Byte)} (h : fs.tree.IsDir l)
    (hthere : fs.tree.entry (c.move l) ≠ none) : fs.visit c l h = fs := by
  cases fs
  unfold FileSystem.visit
  congr 1
  exact FileTree.visit_eq_self h hthere

/-- A path that can be followed cannot be made. -/
theorem mkdir_of_walk (hpieces : path.splitOn GetFilePathSeparator = pieces ++ [[]])
    (hwalk : fs.tree.walk (fs.start path) (pieces.map component) = some l) :
    fs.mkdir path = none := by
  have hdrop : (path.splitOn GetFilePathSeparator).rdropWhile List.isEmpty =
      pieces.rdropWhile List.isEmpty := by
    rw [hpieces, List.rdropWhile_concat_pos _ _ _ rfl]
  unfold mkdir
  simp only [hdrop]
  rcases hlast : (pieces.rdropWhile List.isEmpty).getLast? with - | last
  · rfl
  · simp only [Option.map_some]
    split
    · next n hn =>
      -- the name is found on the way
      obtain ⟨front, hfront⟩ := List.getLast?_eq_some_iff.mp hlast
      obtain ⟨empties, hempties⟩ := List.rdropWhile_prefix List.isEmpty pieces
      rw [← hempties, hfront, List.map_append, List.map_append, List.append_assoc,
        FileTree.walk_append] at hwalk
      rw [hfront, List.dropLast_concat]
      split
      · next loc hloc =>
        rw [hloc, Option.bind_some, List.map_singleton, Option.some.inj hn, List.singleton_append,
          FileTree.walk] at hwalk
        split at hwalk
        · next hstep => exact dif_neg fun h => hstep.2 h.2
        · cases hwalk
      · rfl
    · rfl

/-- What `mkdir` does with a name at the end of the path. -/
theorem mkdir_name (hpieces : path.splitOn GetFilePathSeparator = pieces ++ [piece])
    (hpiece : piece ≠ []) (hwalk : fs.tree.walk (fs.start path) (pieces.map component) = some l) :
    fs.mkdir path = match component piece with
      | .name n =>
          if h : fs.tree.IsDir l ∧ fs.tree.entry (n :: l) = none then
            some (fs.visit (.name n) l h.1)
          else none
      | _ => none := by
  have hdrop : (path.splitOn GetFilePathSeparator).rdropWhile List.isEmpty = pieces ++ [piece] := by
    rw [hpieces, List.rdropWhile_concat_neg]
    rwa [List.isEmpty_iff]
  unfold mkdir
  simp only [hdrop, List.getLast?_concat, List.dropLast_concat, hwalk, Option.map_some]
  rcases component piece with - | - | n <;> rfl

/-- **What the path adds to its front.** -/
theorem level (hpath : path ≠ []) (hpieces : path.splitOn GetFilePathSeparator = pieces ++ [piece])
    (hwalk : fs.tree.walk (fs.start path) (pieces.map component) = some l) :
    (if ¬ IsDirExist fs path then MakeDir fs path else (RJ_S_OK, fs)) =
      if h : fs.tree.IsDir l then (RJ_S_OK, fs.visit (component piece) l h)
      else (RJ_S_FALSE, fs) := by
  have hresolve : fs.resolve path =
      if fs.tree.IsDir l ∧ fs.tree.entry ((component piece).move l) ≠ none then
        some ((component piece).move l) else none := by
    rw [resolve_eq hpath, components, hpieces, List.map_append, List.map_singleton,
      FileTree.walk_concat hwalk]
  by_cases hdir : fs.tree.IsDir l
  · rw [dif_pos hdir]
    by_cases hthere : fs.tree.entry ((component piece).move l) ≠ none
    · have hexist : IsDirExist fs path = true := by
        rw [isDirExist_iff, hresolve, if_pos ⟨hdir, hthere⟩]
        exact Option.some_ne_none _
      rw [if_neg (not_not_intro hexist), visit_eq_self hdir hthere]
    · have hexist : ¬ IsDirExist fs path = true := by
        rw [isDirExist_iff, hresolve, if_neg fun h => hthere h.2]
        exact not_not_intro rfl
      rw [if_pos hexist, MakeDir]
      cases hc : component piece with
      | here =>
          rw [hc] at hthere
          exact absurd hdir.there hthere
      | up =>
          rw [hc] at hthere
          exact absurd hdir.tail.there hthere
      | name n =>
          have hpiece : piece ≠ [] := by
            rintro rfl
            cases hc
          rw [hc] at hthere
          have hmkdir : fs.mkdir path = some (fs.visit (.name n) l hdir) := by
            rw [mkdir_name hpieces hpiece hwalk, hc]
            exact dif_pos ⟨hdir, not_not.mp hthere⟩
          rw [hmkdir]
  · have hexist : ¬ IsDirExist fs path = true := by
      rw [isDirExist_iff, hresolve, if_neg fun h => hdir h.1]
      exact not_not_intro rfl
    rw [if_pos hexist, dif_neg hdir, MakeDir]
    have hmkdir : fs.mkdir path = none := by
      by_cases hpiece : piece = []
      · subst hpiece
        exact mkdir_of_walk hpieces hwalk
      · rw [mkdir_name hpieces hpiece hwalk]
        split
        · exact dif_neg fun h => hdir h.1
        · rfl
    rw [hmkdir]

end Level

/-! ### The whole path -/

section Chain

variable {fs fs' : FileSystem} {path pre last : List Byte} {loc l : List (List Byte)}

/-- Where a path starts, or the front of one in which a separator follows. -/
def origin (fs : FileSystem) (path : List Byte) : List (List Byte) :=
  fs.start (path ++ [GetFilePathSeparator])

/-- The directories of the path can be made. -/
def makes (fs : FileSystem) (path : List Byte) : Bool :=
  (fs.tree.make (origin fs path) (components path)).1

/-- The file system with the directories of the path made. -/
def made (fs : FileSystem) (path : List Byte) : FileSystem where
  tree := (fs.tree.make (origin fs path) (components path)).2
  cwd := fs.cwd
  cwd_dir := FileTree.make_old fs.cwd_dir

theorem start_isDir (fs : FileSystem) (path : List Byte) : fs.tree.IsDir (fs.start path) := by
  unfold start
  split
  · exact fs.tree.root
  · exact fs.cwd_dir

theorem origin_eq_start (h : path ≠ []) : origin fs path = fs.start path := by
  unfold origin start
  rw [List.head?_append_of_ne_nil _ h]

theorem origin_cut (fs : FileSystem) (pre rest : List Byte) :
    origin fs (pre ++ GetFilePathSeparator :: rest) = origin fs pre := by
  unfold origin start
  cases pre with
  | nil => rfl
  | cons b pre => rfl

theorem components_of_not_mem (h : GetFilePathSeparator ∉ path) :
    components path = [component path] := by
  rw [components, List.splitOn_eq_singleton h]
  rfl

theorem components_cut (pre rest : List Byte) :
    components (pre ++ GetFilePathSeparator :: rest) = components pre ++ components rest := by
  rw [components, List.splitOn_append_cons_self, List.map_append]
  rfl

theorem components_ne_nil (path : List Byte) : components path ≠ [] := by
  rw [components, Ne, List.map_eq_nil_iff]
  exact List.splitOn_ne_nil _ _

theorem made_walk (h : makes fs path = true) :
    (made fs path).tree.walk (origin fs path) (components path) =
      some (destination (origin fs path) (components path)) := FileTree.walk_of_make h

/-- What the last component adds. -/
theorem make_cut (hlast : GetFilePathSeparator ∉ last) (h : makes fs pre = true) :
    fs.tree.make (origin fs (pre ++ GetFilePathSeparator :: last))
        (components (pre ++ GetFilePathSeparator :: last)) =
      if h : (made fs pre).tree.IsDir (destination (origin fs pre) (components pre)) then
        (true, (made fs pre).tree.visit (component last) _ h)
      else (false, (made fs pre).tree) := by
  rw [origin_cut, components_cut, components_of_not_mem hlast]
  exact FileTree.make_concat h

theorem make_cut_of_stopped (h : makes fs pre = false) (rest : List Byte) :
    fs.tree.make (origin fs (pre ++ GetFilePathSeparator :: rest))
        (components (pre ++ GetFilePathSeparator :: rest)) =
      fs.tree.make (origin fs pre) (components pre) := by
  have hstop : ¬ (fs.tree.make (origin fs pre) (components pre)).1 = true :=
    Bool.not_eq_true _ ▸ h
  rw [origin_cut, components_cut, FileTree.make_append, if_neg hstop]

/-- What `make` leaves, when its last step is known. -/
theorem made_eq {ok : Bool} (fs' : FileSystem)
    (h : fs.tree.make (origin fs path) (components path) = (ok, fs'.tree))
    (hcwd : fs'.cwd = fs.cwd) :
    makes fs path = ok ∧ made fs path = fs' := by
  refine ⟨?_, FileSystem.ext ?_ hcwd.symm⟩
  · rw [makes, h]
  · show (fs.tree.make (origin fs path) (components path)).2 = fs'.tree
    rw [h]

/-- The last component, once the directories of the front are made. -/
theorem cut_made (hlast : GetFilePathSeparator ∉ last) (h : makes fs pre = true) :
    (if ¬ IsDirExist (made fs pre) (pre ++ GetFilePathSeparator :: last) then
        MakeDir (made fs pre) (pre ++ GetFilePathSeparator :: last) else (RJ_S_OK, made fs pre)) =
      (if makes fs (pre ++ GetFilePathSeparator :: last) then RJ_S_OK else RJ_S_FALSE,
        made fs (pre ++ GetFilePathSeparator :: last)) := by
  have hpieces : (pre ++ GetFilePathSeparator :: last).splitOn GetFilePathSeparator =
      pre.splitOn GetFilePathSeparator ++ [last] := by
    rw [List.splitOn_append_cons_self, List.splitOn_eq_singleton hlast]
  have hstart : (made fs pre).start (pre ++ GetFilePathSeparator :: last) = origin fs pre :=
    (origin_eq_start (by simp)).symm.trans (origin_cut fs pre last)
  have hwalk : (made fs pre).tree.walk
      ((made fs pre).start (pre ++ GetFilePathSeparator :: last))
      ((pre.splitOn GetFilePathSeparator).map component) =
        some (destination (origin fs pre) (components pre)) := by
    rw [hstart]
    exact made_walk h
  have hmake := make_cut hlast h
  rw [level (by simp) hpieces hwalk]
  by_cases hdir : (made fs pre).tree.IsDir (destination (origin fs pre) (components pre))
  · rw [dif_pos hdir] at hmake ⊢
    obtain ⟨hok, hmade⟩ := made_eq ((made fs pre).visit (component last) _ hdir) hmake rfl
    rw [hok, hmade, if_pos rfl]
  · rw [dif_neg hdir] at hmake ⊢
    obtain ⟨hok, hmade⟩ := made_eq (made fs pre) hmake rfl
    rw [hok, hmade, if_neg Bool.false_ne_true]

/-- A path without a separator. -/
theorem single_made (hpath : path ≠ []) (hmem : GetFilePathSeparator ∉ path) :
    (if ¬ IsDirExist fs path then MakeDir fs path else (RJ_S_OK, fs)) =
      (if makes fs path then RJ_S_OK else RJ_S_FALSE, made fs path) := by
  have hpieces : path.splitOn GetFilePathSeparator = [] ++ [path] :=
    List.splitOn_eq_singleton hmem
  have hdir : fs.tree.IsDir (fs.start path) := start_isDir fs path
  have hmake : fs.tree.make (origin fs path) (components path) =
      (true, (fs.visit (component path) _ hdir).tree) := by
    rw [origin_eq_start hpath, components_of_not_mem hmem, FileTree.make, dif_pos hdir]
    rfl
  obtain ⟨hok, hmade⟩ := made_eq (fs.visit (component path) _ hdir) hmake rfl
  rw [level hpath hpieces rfl, dif_pos hdir, hok, hmade, if_pos rfl]

/-- **`MakeDirs` makes the directories of the path**, as far as that can be
done. -/
theorem MakeDirs_returns (fs : FileSystem) (path : List Byte) (hlen : path.length < PathMaxLength) :
    Returns (MakeDirs fs path) (if makes fs path then RJ_S_OK else RJ_S_FALSE, made fs path) := by
  induction hn : path.length using Nat.strong_induction_on generalizing path with
  | _ n ih =>
      by_cases hpath : path = []
      · subst hpath
        have hroot : fs.tree.IsDir [] := fs.tree.root
        have hmake : fs.tree.make (origin fs []) (components []) = (true, fs.tree) :=
          dif_pos hroot
        obtain ⟨hok, hmade⟩ := made_eq fs hmake rfl
        rw [hok, hmade, if_pos rfl]
        exact (returns_pure _).succ fun _ => rfl
      · have hzero : ¬ path.length = 0 := fun h => hpath (List.length_eq_zero_iff.mp h)
        have hfits : ¬ path.length ≥ PathMaxLength := Nat.not_le.mpr hlen
        by_cases hmem : GetFilePathSeparator ∈ path
        · -- the front first, then what the last component adds
          obtain ⟨pre, last, rfl, hlast⟩ := eq_append_cons_of_mem_last hmem
          have hshort : pre.length < (pre ++ GetFilePathSeparator :: last).length := by
            rw [List.length_append, List.length_cons]
            omega
          have hpre := ih pre.length (hn ▸ hshort) pre (Nat.lt_trans hshort hlen) rfl
          have hstep : ∀ fuel, MakeDirs fs (pre ++ GetFilePathSeparator :: last) (fuel + 1) =
              (MakeDirs fs pre fuel).map fun r =>
                if r.1 = RJ_S_OK ∧ ¬ IsDirExist r.2 (pre ++ GetFilePathSeparator :: last) then
                  MakeDir r.2 (pre ++ GetFilePathSeparator :: last) else r := by
            intro fuel
            rw [MakeDirs, if_neg hzero, if_neg hfits]
            simp only [strrchr_of_cut hlast, List.take_left]
          have hmap := hpre.map.succ hstep
          cases hok : makes fs pre with
          | true =>
              rw [hok, if_pos rfl] at hmap
              simpa only [true_and, cut_made hlast hok] using hmap
          | false =>
              have hsame : fs.tree.make (origin fs pre) (components pre) =
                  (false, (made fs pre).tree) := Prod.ext hok rfl
              have hfail : ¬ RJ_S_FALSE = RJ_S_OK := by decide
              obtain ⟨hstop, hmade⟩ :=
                made_eq (made fs pre) ((make_cut_of_stopped hok last).trans hsame) rfl
              rw [hok, if_neg Bool.false_ne_true, if_neg fun h => hfail h.1] at hmap
              rw [hstop, hmade, if_neg Bool.false_ne_true]
              exact hmap
        · have hstep : ∀ fuel, MakeDirs fs path (fuel + 1) =
              some (if ¬ IsDirExist fs path then MakeDir fs path else (RJ_S_OK, fs)) := by
            intro fuel
            rw [MakeDirs, if_neg hzero, if_neg hfits]
            simp only [strrchr_of_not_mem hmem]
            split <;> rfl
          rw [← single_made hpath hmem]
          exact (returns_pure _).succ hstep

/-! ### The parts of the path -/

theorem origin_of_before (h : Before pre path) : origin fs path = origin fs pre := by
  obtain ⟨rest, rfl⟩ := h
  exact origin_cut fs pre rest

theorem components_of_before (h : Before pre path) :
    ∃ cs, cs ≠ [] ∧ components path = components pre ++ cs := by
  obtain ⟨rest, rfl⟩ := h
  exact ⟨components rest, components_ne_nil rest, components_cut pre rest⟩

/-- The first components of a path are those of a part of it. -/
theorem exists_part {cs ds : List (Component (List Byte))} (hcs : cs ≠ [])
    (h : components path = cs ++ ds) :
    ∃ pre, components pre = cs ∧ (ds = [] ∧ pre = path ∨ ds ≠ [] ∧ Before pre path) := by
  obtain ⟨ps, qs, hpieces, rfl, rfl⟩ := List.map_eq_append_iff.mp h
  have hps : ps ≠ [] := by
    rintro rfl
    exact hcs rfl
  obtain ⟨front, hfront, ⟨rfl, rfl⟩ | ⟨rest, hrest, rfl⟩⟩ := exists_front hpieces hps
  · exact ⟨front, by rw [components, hfront], .inl ⟨rfl, rfl⟩⟩
  · exact ⟨front, by rw [components, hfront], .inr ⟨components_ne_nil rest, rest, hrest⟩⟩

/-- What a part of the path names in the end. -/
theorem resolve_part (hpre : pre ≠ []) (hpart : pre = path ∨ Before pre path) :
    (made fs path).resolve pre =
      (made fs path).tree.walk (origin fs path) (components pre) := by
  have horigin : origin fs path = (made fs path).start pre := by
    obtain rfl | hbefore := hpart
    · exact origin_eq_start hpre
    · exact (origin_of_before hbefore).trans (origin_eq_start hpre)
  rw [resolve_eq hpre, horigin]

/-- The directories can be made unless a file is in front of a separator. -/
theorem makes_iff : makes fs path = true ↔ ∀ pre, pre ≠ [] → Before pre path →
    ¬ fs.tree.IsFile (destination (fs.start pre) (components pre)) := by
  have horigin : fs.tree.IsDir (origin fs path) := start_isDir fs _
  unfold makes
  rw [FileTree.make_ok_iff horigin.there]
  constructor
  · intro h pre hpre hbefore
    obtain ⟨cs, hcs, hcomponents⟩ := components_of_before hbefore
    rw [← origin_eq_start hpre, ← origin_of_before hbefore]
    refine h _ ⟨cs, hcomponents.symm⟩ fun heq => ?_
    rw [← heq, List.self_eq_append_right] at hcomponents
    exact hcs hcomponents
  · rintro h cs ⟨ds, hds⟩ hne
    by_cases hcs : cs = []
    · subst hcs
      exact horigin.not_isFile
    · obtain ⟨pre, rfl, ⟨rfl, rfl⟩ | ⟨-, hbefore⟩⟩ := exists_part hcs hds.symm
      · exact absurd rfl hne
      · rw [origin_of_before hbefore]
        by_cases hpre : pre = []
        · subst hpre
          exact FileTree.IsDir.not_isFile (start_isDir fs [GetFilePathSeparator])
        · rw [origin_eq_start hpre]
          exact h pre hpre hbefore

theorem endsAtFile_iff (hpath : path ≠ []) : EndsAtFile fs path ↔
    fs.tree.IsFile (destination (origin fs path) (components path)) ∧ makes fs path = true := by
  rw [makes_iff, origin_eq_start hpath]
  rfl

/-- The parts of the path before a separator name directories. -/
theorem namesDir_of_before (h : makes fs path = true) (hpre : pre ≠ [])
    (hbefore : Before pre path) : NamesDir (made fs path) pre := by
  obtain ⟨cs, hcs, hcomponents⟩ := components_of_before hbefore
  have hwalk := made_walk h
  rw [hcomponents, FileTree.walk_append, Option.bind_eq_some_iff] at hwalk
  obtain ⟨loc, hloc, hrest⟩ := hwalk
  obtain ⟨c, cs, rfl⟩ := List.exists_cons_of_ne_nil hcs
  refine ⟨loc, (resolve_part hpre (.inr hbefore)).trans hloc, ?_⟩
  rw [FileTree.walk] at hrest
  split at hrest
  · next hc => exact hc.1
  · cases hrest

theorem resolve_path (hpath : path ≠ []) (h : makes fs path = true) :
    (made fs path).resolve path = some (destination (origin fs path) (components path)) :=
  (resolve_part hpath (.inl rfl)).trans (made_walk h)

/-- So does the path, unless it leads to a file. -/
theorem namesDir_path (hpath : path ≠ []) (h : makes fs path = true) :
    NamesDir (made fs path) path ↔
      ¬ fs.tree.IsFile (destination (origin fs path) (components path)) := by
  constructor
  · rintro ⟨loc, hloc, hdir⟩ ⟨content, hfile⟩
    rw [resolve_path hpath h] at hloc
    obtain rfl := Option.some.inj hloc
    exact hdir.not_isFile ⟨content, FileTree.make_old hfile⟩
  · intro hfile
    refine ⟨_, resolve_path hpath h, ?_⟩
    have horigin : fs.tree.IsDir (origin fs path) := start_isDir fs _
    have hend := FileTree.entry_of_walk (FileTree.make_there horigin.there) (made_walk h)
    exact (FileTree.isDir_or_isFile hend).resolve_right fun hnew =>
      hfile (FileTree.isFile_of_make hnew)

/-- The parts of a part are parts of the path. -/
theorem Before.of_part {pre' : List Byte} (h : Before pre' pre)
    (hpart : pre = path ∨ Before pre path) : Before pre' path := by
  obtain ⟨rest, rfl⟩ := h
  obtain rfl | ⟨rest', rfl⟩ := hpart
  · exact ⟨rest, rfl⟩
  · exact ⟨rest ++ GetFilePathSeparator :: rest', by simp⟩

/-- **Where it stops**, and what was made before. -/
theorem stopped_at (h : makes fs path = false) :
    ∃ pre, (pre = path ∨ Before pre path) ∧ (made fs path).resolve pre = none ∧
      (∀ pre', pre' ≠ [] → Before pre' pre → ∃ loc, (made fs path).resolve pre' = some loc) ∧
      ∀ loc, fs.tree.entry loc = none → (made fs path).tree.entry loc ≠ none →
        ∃ pre', Before pre' pre ∧ (made fs path).resolve pre' = some loc := by
  obtain ⟨cs, c, ds, hcomponents, hok, hmake, hdir⟩ := FileTree.make_stops h
  have htree : (made fs path).tree = (fs.tree.make (origin fs path) cs).2 := by
    show (fs.tree.make (origin fs path) (components path)).2 = _
    rw [hmake]
  have hwalk : (made fs path).tree.walk (origin fs path) cs =
      some (destination (origin fs path) cs) := by
    rw [htree]
    exact FileTree.walk_of_make hok
  rw [← htree] at hdir
  have hcs : cs ≠ [] := by
    rintro rfl
    exact hdir (FileTree.make_old (start_isDir fs _))
  have hall : components path = (cs ++ [c]) ++ ds := by
    rw [hcomponents, List.append_assoc]
    rfl
  obtain ⟨pre, hpre, hpart⟩ := exists_part (by simp) hall
  have hpart : pre = path ∨ Before pre path := hpart.imp And.right And.right
  have hne : pre ≠ [] := by
    rintro rfl
    have hone : cs ++ [c] = [.here] := hpre.symm
    rw [List.append_eq_singleton_iff] at hone
    obtain ⟨rfl, -⟩ | ⟨-, h⟩ := hone
    · exact hcs rfl
    · cases h
  have hparts : ∀ pre' es, pre' ≠ [] → Before pre' pre → cs = components pre' ++ es →
      (made fs path).resolve pre' = some (destination (origin fs path) (components pre')) := by
    intro pre' es hne' hpre' hes
    rw [resolve_part hne' (.inr (hpre'.of_part hpart))]
    rw [hes, FileTree.walk_append, Option.bind_eq_some_iff] at hwalk
    obtain ⟨loc, hloc, -⟩ := hwalk
    rw [hloc, FileTree.eq_destination_of_walk hloc]
  refine ⟨pre, hpart, ?_, ?_, ?_⟩
  · rw [resolve_part hne hpart, hpre, FileTree.walk_concat hwalk, if_neg fun h => hdir h.1]
  · intro pre' hne' hpre'
    obtain ⟨es, hes, heq⟩ := components_of_before hpre'
    obtain ⟨es, e, rfl⟩ := (List.eq_nil_or_concat es).resolve_left hes
    rw [hpre, List.concat_eq_append, ← List.append_assoc] at heq
    exact ⟨_, hparts pre' es hne' hpre' (List.append_inj_left' heq rfl)⟩
  · intro loc hnone hnew
    rw [htree] at hnew
    obtain ⟨-, front, ⟨es, hes⟩, hfront, -, rfl⟩ := FileTree.make_new hnone hnew
    have heq : components pre = front ++ (es ++ [c]) := by
      rw [hpre, ← hes, List.append_assoc]
    obtain ⟨pre', rfl, ⟨hnil, -⟩ | ⟨-, hpre'⟩⟩ := exists_part hfront heq
    · exact absurd hnil (by simp)
    · refine ⟨pre', hpre', hparts pre' es ?_ hpre' hes.symm⟩
      rintro rfl
      exact Option.some_ne_none _ ((start_isDir fs _).symm.trans hnone)

/-- **When `MakeDirs` makes the chain**: unless a file is at the end of the
path. -/
theorem makesChain_iff (hpath : path ≠ []) (hlen : path.length < PathMaxLength) :
    MakesChain fs path ↔ ¬ EndsAtFile fs path := by
  have hreturns := MakeDirs_returns fs path hlen
  have hfail : ¬ RJ_S_FALSE = RJ_S_OK := by decide
  rw [endsAtFile_iff hpath]
  constructor
  · rintro h ⟨hfile, hok⟩
    rw [hok, if_pos rfl] at hreturns
    exact (namesDir_path hpath hok).mp (h.made _ hreturns path hpath (.inl rfl)) hfile
  · intro hends
    refine ⟨⟨_, hreturns⟩, ?_, ?_, ?_⟩
    · intro fs' hfs' pre hpre hpart
      obtain ⟨hret, rfl⟩ := Prod.ext_iff.mp (hreturns.unique hfs')
      have hok : makes fs path = true := by
        by_contra hok
        rw [if_neg hok] at hret
        exact hfail hret
      obtain rfl | hbefore := hpart
      · exact (namesDir_path hpath hok).mpr fun hfile => hends ⟨hfile, hok⟩
      · exact namesDir_of_before hok hpre hbefore
    · intro ret fs' hfs' hret
      obtain ⟨rfl, rfl⟩ := Prod.ext_iff.mp (hreturns.unique hfs')
      refine stopped_at (Bool.eq_false_iff.mpr fun hok => hret ?_)
      rw [if_pos hok]
    · intro ret fs' hfs' loc e he
      obtain ⟨-, rfl⟩ := Prod.ext_iff.mp (hreturns.unique hfs')
      exact FileTree.make_old he

/-- A file system whose root holds at most one entry, a file. -/
def fileSystem (file : Option (List Byte)) : FileSystem where
  tree :=
    { entry := fun loc => if loc = [] then some .dir else
        if file.map (fun name => [name]) = some loc then some (.file []) else none
      root := rfl
      parent := by
        intro name loc hne
        rcases file with - | f
        · exact absurd rfl hne
        · cases loc with
          | nil => rfl
          | cons n loc => simp at hne }
  cwd := []
  cwd_dir := rfl

/-- `"a/b"`, where nothing is there. -/
theorem makesChain_iff_empty : MakesChain (fileSystem none) [97, 47, 98] := by
  refine (makesChain_iff (by decide) (by decide)).mpr ?_
  rintro ⟨⟨content, hfile⟩, -⟩
  cases hfile

/-- `"f"`, which is a file. -/
theorem not_makesChain : ¬ ∀ (fs : FileSystem) (path : List Byte), path ≠ [] →
    path.length < PathMaxLength → MakesChain fs path := by
  intro h
  have hcode : Returns (MakeDirs (fileSystem (some [102])) [102])
      (RJ_S_OK, fileSystem (some [102])) := (returns_pure _).succ fun _ => rfl
  obtain ⟨loc, hloc, hdir⟩ :=
    (h (fileSystem (some [102])) [102] (by decide) (by decide)).made _ hcode [102] (by decide)
      (.inl rfl)
  have hfile : (fileSystem (some [102])).resolve [102] = some [[102]] := rfl
  obtain rfl := Option.some.inj (hfile.symm.trans hloc)
  cases hdir

end Chain

end RJSysUtil

end TestExamples
