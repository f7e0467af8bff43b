import Clarion.Project
import Mathlib.Data.List.Induction

/-! Existence checks that run side by side settle on the candidate that a search one place after the
other finds first, in whatever order they finish. What is kept between two finished checks is the
earliest place so far, so two checks may trade places without a trace. -/
namespace Clarion

namespace Probe

variable {files : FileSystem} {candidates : List Path} {finished others : List Check}

theorem better_comm (best : Option Nat) (first second : Check) :
    better (better best first) second = better (better best second) first := by
  obtain ⟨place, found⟩ := first
  obtain ⟨place', found'⟩ := second
  cases found with
  | false => rfl
  | true =>
    cases found' with
    | false => rfl
    | true =>
      cases best with
      | none => simp [better, Nat.min_comm]
      | some best => simp [better, Nat.min_left_comm]

theorem earliest_perm (order : finished.Perm others) : earliest finished = earliest others :=
  order.foldl_eq' (fun first _ second _ best => better_comm best first second) none

/-- Checks that finish in the order of the candidates give the place of the first file. -/
theorem earliest_checks (files : FileSystem) (candidates : List Path) :
    earliest (checks files candidates) = candidates.findIdx? files.has := by
  induction candidates using List.reverseRecOn with
  | nil => rfl
  | append_singleton candidates last ih =>
    rw [checks, List.mapIdx_concat, earliest, List.foldl_append, List.findIdx?_append]
    change better (earliest (checks files candidates)) (candidates.length, files.has last) = _
    rw [ih]
    cases found : candidates.findIdx? files.has with
    | none => cases here : files.has last <;> simp [better, here]
    | some place =>
      -- A candidate that was found stands before the last one, so the last one changes nothing.
      have before : place < candidates.length :=
        (List.findIdx?_eq_some_iff_findIdx_eq.mp found).1
      cases here : files.has last with
      | false => simp [better]
      | true => simp [better, Nat.min_eq_right (Nat.le_of_lt before)]

/-- In whatever order the checks of the candidates finish, they settle on the first one that is
there. -/
theorem winner?_perm (complete : finished.Perm (checks files candidates)) :
    winner? candidates finished = candidates.find? files.has := by
  rw [winner?, earliest_perm complete, earliest_checks, List.find?_eq_bind_findIdx?_getElem?]

theorem firstExisting_eq (files : FileSystem) (candidates : List Path) :
    firstExisting files candidates = candidates.find? files.has :=
  winner?_perm (.refl _)

end Probe

namespace Project

/-- Trying name after name, and for each name its redirections and then its search paths, visits
the candidates in their order. -/
theorem find?_eq (project : Project) (files : FileSystem) (settings : Settings) (name : String) :
    project.find? files settings name = (project.candidates settings name).find? files.has := by
  simp only [find?, candidates, List.find?_flatMap, List.find?_append]
  rfl

/-- Checks of all places of a name that run side by side find what a search of one place after the
other finds, the earliest candidate that is there, in whatever order they finish. -/
theorem side_by_side_finds_first (project : Project) (files : FileSystem) (settings : Settings)
    (name : String) (finished : List Probe.Check)
    (complete : finished.Perm (Probe.checks files (project.candidates settings name))) :
    Probe.winner? (project.candidates settings name) finished =
        project.findSideBySide? files settings name ∧
      project.findSideBySide? files settings name = project.find? files settings name ∧
      project.find? files settings name =
        (project.candidates settings name).find? files.has := by
  have settled := Probe.winner?_perm complete
  have sideBySide : project.findSideBySide? files settings name = _ :=
    Probe.firstExisting_eq files (project.candidates settings name)
  have inOrder := project.find?_eq files settings name
  exact ⟨settled.trans sideBySide.symm, sideBySide.trans inOrder.symm, inOrder⟩

/-- A project whose included files stand in two directories. -/
def twoIncludes : Project where
  name := "Invoice"
  path := ⟨"/app/Invoice.cwproj"⟩
  directory := ⟨"/app"⟩
  file := {}
  sourceFiles := []
  entries := [⟨"Common", "*.inc", [⟨"inc"⟩, ⟨"../shared"⟩], ⟨"/app/Clarion110.red"⟩⟩]

/-- The same name in both directories, and in that of the project. -/
def threeDefs : Files :=
  [⟨⟨"/shared/Defs.inc"⟩, .bytes [], 0⟩, ⟨⟨"/app/Defs.inc"⟩, .bytes [], 0⟩,
    ⟨⟨"/app/inc/Defs.inc"⟩, .bytes [], 0⟩]

theorem defs_found_last_to_first :
    let candidates := twoIncludes.candidates {} "Defs"
    let finished := (Probe.checks threeDefs.fileSystem candidates).reverse
    finished.Perm (Probe.checks threeDefs.fileSystem candidates) ∧
      Probe.winner? candidates finished = twoIncludes.find? threeDefs.fileSystem {} "Defs" ∧
      twoIncludes.find? threeDefs.fileSystem {} "Defs" = some ⟨"/app/inc/Defs.inc"⟩ := by
  intro candidates finished
  have complete := List.reverse_perm (Probe.checks threeDefs.fileSystem candidates)
  obtain ⟨settled, same, -⟩ := side_by_side_finds_first twoIncludes threeDefs.fileSystem {} "Defs"
    finished complete
  exact ⟨complete, settled.trans same, by decide +kernel⟩

end Project
end Clarion
