import Clarion.Proofs.Cutting
import Clarion.Proofs.Names
import Clarion.Solution

/-! Letter case in the names that are searched for. Neither the separators of a path nor the periods
of a file name have two forms, so names that differ in case have the same extension up to case; and
compiled items are found by any of them alike. -/
namespace Clarion

variable {left right : String}

/-! ### Characters without case -/

/-- Capitals are made small by going 32 characters on, and all other characters stay. -/
theorem toNat_toLower (c : Char) :
    c.toLower.toNat = if 65 ≤ c.toNat ∧ c.toNat ≤ 90 then c.toNat + 32 else c.toNat := by
  by_cases capital : 65 ≤ c.toNat ∧ c.toNat ≤ 90
  · have upper : c.val ≥ 'A'.val ∧ c.val ≤ 'Z'.val := capital
    rw [if_pos capital]
    unfold Char.toLower
    rw [dif_pos upper]
    exact Outline.toNat_small capital.2
  · rw [if_neg capital]
    exact congrArg Char.toNat (dif_neg capital)

theorem toLower_of_not_capital {c : Char} (small : ¬(65 ≤ c.toNat ∧ c.toNat ≤ 90)) :
    c.toLower = c := by
  apply Char.toNat_inj.mp
  rw [toNat_toLower, if_neg small]

theorem toLower_toLower (c : Char) : c.toLower.toLower = c.toLower := by
  apply toLower_of_not_capital
  rw [toNat_toLower]
  split <;> omega

/-- A character before the letters is no capital, and none is made small into it. -/
theorem toLower_eq_iff {c mark : Char} (before : mark.toNat < 65) : c.toLower = mark ↔ c = mark := by
  rw [← Char.toNat_inj, ← Char.toNat_inj, toNat_toLower]
  split <;> omega

namespace Text

theorem foldLower_append (left right : String) :
    foldLower (left ++ right) = foldLower left ++ foldLower right := by
  simp [foldLower]

theorem sameFold_eq (left right : String) :
    sameFold left right = (foldLower left == foldLower right) := by
  rw [Bool.eq_iff_iff, sameFold, beq_iff_eq, beq_iff_eq, foldLower, foldLower,
    String.ofList_inj]

end Text

/-! ### Extensions -/

/-- A part with its letters made small. -/
def Part.foldLower : Part → Part
  | .name chars => .name (chars.map Char.toLower)
  | part => part

namespace Path

theorem map_toLower_eq_iff {segment : List Char} {mark : Char} (before : mark.toNat < 65) :
    segment.map Char.toLower = [mark] ↔ segment = [mark] := by
  cases segment with
  | nil => simp
  | cons c rest => simp [toLower_eq_iff before]

theorem partOf?_map (segment : List Char) :
    partOf? (segment.map Char.toLower) = (partOf? segment).map Part.foldLower := by
  have dot : segment.map Char.toLower = ['.'] ↔ segment = ['.'] := map_toLower_eq_iff (by decide)
  have dots : segment.map Char.toLower = ['.', '.'] ↔ segment = ['.', '.'] := by
    cases segment with
    | nil => simp
    | cons c rest =>
      rw [List.map_cons, List.cons.injEq, List.cons.injEq, toLower_eq_iff (by decide),
        map_toLower_eq_iff (by decide)]
  simp only [partOf?, List.map_eq_nil_iff, dot, dots]
  split
  · rfl
  · split <;> rfl

theorem filterMap_partOf?_map (segments : List (List Char)) :
    (segments.map (List.map Char.toLower)).filterMap partOf? =
      (segments.filterMap partOf?).map Part.foldLower := by
  rw [List.filterMap_map, List.map_filterMap]
  exact congrArg (List.filterMap · segments) (funext partOf?_map)

/-- The parts that segments stand for. -/
def partsOfSegments : List (List Char) → List Part
  | [] => []
  | [[]] => []
  | [] :: rest => .root :: rest.filterMap partOf?
  | ['.'] :: rest => .here :: rest.filterMap partOf?
  | first :: rest => (first :: rest).filterMap partOf?

theorem partsOfSegments_named {first : List Char} (rest : List (List Char)) (named : first ≠ [])
    (elsewhere : first ≠ ['.']) :
    partsOfSegments (first :: rest) = (first :: rest).filterMap partOf? := by
  unfold partsOfSegments
  split <;> simp_all

theorem partsOfSegments_map (segments : List (List Char)) :
    partsOfSegments (segments.map (List.map Char.toLower)) =
      (partsOfSegments segments).map Part.foldLower := by
  -- The first segment decides where the path starts; the others stand for inner parts.
  rcases segments with _ | ⟨first, rest⟩
  · rfl
  · by_cases empty : first = []
    · rw [empty]
      cases rest with
      | nil => rfl
      | cons next rest => exact congrArg (Part.root :: ·) (filterMap_partOf?_map (next :: rest))
    · by_cases here : first = ['.']
      · rw [here]
        exact congrArg (Part.here :: ·) (filterMap_partOf?_map rest)
      · rw [partsOfSegments_named rest empty here, List.map_cons, partsOfSegments_named, ←
          filterMap_partOf?_map, List.map_cons]
        · exact fun lowered => empty (List.map_eq_nil_iff.mp lowered)
        · exact fun lowered => here ((map_toLower_eq_iff (by decide)).mp lowered)

theorem partsOf_map (chars : List Char) :
    partsOf (chars.map Char.toLower) = (partsOf chars).map Part.foldLower := by
  have slash (c : Char) : (c.toLower == '/') = (c == '/') := by
    rw [Bool.eq_iff_iff, beq_iff_eq, beq_iff_eq, toLower_eq_iff (by decide)]
  change partsOfSegments (Text.splitChars (· == '/') (chars.map Char.toLower)) = _
  rw [Text.splitChars_map slash, partsOfSegments_map]
  rfl

theorem fileName?_map (chars : List Char) :
    fileName? ⟨String.ofList (chars.map Char.toLower)⟩ =
      (fileName? ⟨String.ofList chars⟩).map Text.foldLower := by
  simp only [fileName?, parts, String.toList_ofList, partsOf_map, List.getLast?_map]
  cases (partsOf chars).getLast? with
  | none => rfl
  | some part => cases part <;> simp [Part.foldLower, Text.foldLower]

theorem cutExtension_foldLower (name : String) :
    (cutExtension (Text.foldLower name)).2 = (cutExtension name).2.map Text.foldLower := by
  have dot (c : Char) : c.toLower = '.' ↔ c = '.' := toLower_eq_iff (by decide)
  simp only [cutExtension, Text.foldLower, String.toList_ofList, ← List.map_reverse,
    Text.cutChars_map dot]
  rcases Text.cutChars '.' name.toList.reverse with _ | ⟨extension, _ | ⟨c, stem⟩⟩ <;>
    simp [Text.foldLower]

theorem dottedExtension?_congr (same : Text.foldLower left = Text.foldLower right) :
    dottedExtension? left = dottedExtension? right := by
  have lowered (name : String) : (extension? ⟨name⟩).map Text.foldLower =
      extension? ⟨Text.foldLower name⟩ := by
    have fileName := fileName?_map name.toList
    rw [String.ofList_toList] at fileName
    rw [extension?, extension?, Text.foldLower, fileName]
    cases fileName? ⟨name⟩ with
    | none => rfl
    | some file => exact (cutExtension_foldLower file).symm
  have extension := (lowered left).trans ((congrArg (extension? ⟨·⟩) same).trans (lowered right).symm)
  have dotted := congrArg (Option.map ("." ++ ·)) extension
  rw [Option.map_map, Option.map_map] at dotted
  exact dotted

end Path

/-! ### Compiled items -/

theorem Project.lookupNames_congr (settings : Settings)
    (same : Text.foldLower left = Text.foldLower right) :
    (lookupNames settings left).map Text.foldLower =
      (lookupNames settings right).map Text.foldLower := by
  unfold lookupNames
  rw [Path.dottedExtension?_congr same]
  cases Path.dottedExtension? right with
  | some extension => simp [same]
  | none => simp [same, Text.foldLower_append, Function.comp_def]

/-- A compiled item is found under a name just as under any other that differs in case. -/
theorem Solution.sourceLookup?_congr (solution : Solution) {names others : List String}
    (same : names.map Text.foldLower = others.map Text.foldLower) :
    solution.sourceLookup? names = solution.sourceLookup? others := by
  have byKey (names : List String) : solution.sourceLookup? names =
      (names.map Text.foldLower).findSome? fun key => solution.projects.findSome? fun project =>
        (project.sourceFiles.find? fun path =>
          path.fileName?.any fun file => Text.foldLower file == key).map fun path =>
            ⟨path, .project, project.name⟩ := by
    simp only [sourceLookup?, Project.sourceFile?, Path.hasFileName, List.findSome?_map,
      Function.comp_def, Text.sameFold_eq]
  rw [byKey, byKey, same]

end Clarion
