import Clarion.Outline.Finder
import Mathlib.Data.List.TakeWhile

/-! Names of classes and methods. Names compare up to the case of the letters `A` to `Z`; a
displayed name is an identifier with parameters after it, or the name of an undeclared class with
its mark. -/
namespace Clarion.Outline

/-! ### Letter case -/

theorem sameFold_iff {left right : String} : Text.sameFold left right ↔
    left.toList.map Char.toLower = right.toList.map Char.toLower := by
  rw [Text.sameFold, beq_iff_eq]

theorem sameFold_symm {left right : String} (same : Text.sameFold left right) :
    Text.sameFold right left :=
  sameFold_iff.mpr (sameFold_iff.mp same).symm

theorem sameFold_trans {left middle right : String} (first : Text.sameFold left middle)
    (second : Text.sameFold middle right) : Text.sameFold left right :=
  sameFold_iff.mpr ((sameFold_iff.mp first).trans (sameFold_iff.mp second))

theorem toLower_toUpper (c : Char) : c.toUpper.toLower = c.toLower := by
  unfold Char.toUpper
  split
  · rename_i lower
    have least : 97 ≤ c.val.toNat := lower.1
    have most : c.val.toNat ≤ 122 := lower.2
    have large : (c.val + ('A'.val - 'a'.val)).toNat = c.val.toNat - 32 := by
      have wraps :
          (c.val + ('A'.val - 'a'.val)).toNat = (c.val.toNat + (2 ^ 32 - 32)) % 2 ^ 32 := by
        rw [UInt32.toNat_add]
        rfl
      omega
    have isUpper :
        c.val + ('A'.val - 'a'.val) ≥ 'A'.val ∧ c.val + ('A'.val - 'a'.val) ≤ 'Z'.val := by
      constructor
      · exact UInt32.le_iff_toNat_le.mpr (le_trans (by change 65 ≤ _; omega) large.ge)
      · exact UInt32.le_iff_toNat_le.mpr (le_trans large.le (by change _ ≤ 90; omega))
    have noUpper : ¬(c.val ≥ 'A'.val ∧ c.val ≤ 'Z'.val) := by
      rintro ⟨-, small⟩
      have small : c.val.toNat ≤ 90 := small
      omega
    unfold Char.toLower
    simp only [isUpper, noUpper, and_self, ↓reduceDIte]
    apply Char.ext
    simp [UInt32.add_assoc]
  · rfl

theorem sameFold_of_foldUpper {left right : String}
    (same : Text.foldUpper left = Text.foldUpper right) : Text.sameFold left right := by
  have letters := congrArg (fun text => text.toList.map Char.toLower) same
  simpa [Text.foldUpper, Text.sameFold, toLower_toUpper, Function.comp_def] using letters

/-! ### Displayed names -/

/-- The mark of an undeclared class is what stands after the name of the class. -/
theorem stripImplementation?_eq_some_iff {name part : String} :
    Arena.stripImplementation? name = some part ↔ name = part ++ Arena.implementationSuffix := by
  unfold Arena.stripImplementation?
  dsimp only
  constructor
  · intro stripped
    split at stripped
    · rename_i ends
      obtain ⟨front, whole⟩ := List.isSuffixOf_iff_suffix.mp ends
      cases stripped
      apply String.toList_inj.mp
      simp [← whole]
    · cases stripped
  · rintro rfl
    simp

theorem eq_of_marked {left right : String}
    (same : left ++ Arena.implementationSuffix = right ++ Arena.implementationSuffix) :
    left = right := by
  have stripped := stripImplementation?_eq_some_iff.mpr same
  rw [stripImplementation?_eq_some_iff.mpr rfl] at stripped
  exact Option.some.inj stripped

/-- No character from `A` to `z` ends an identifier. -/
theorem letter_goes_on {c : Char} (least : 65 ≤ c.toNat) (most : c.toNat ≤ 122) :
    (Text.isBlank c || c == '(') = false := by
  have noParen : c ≠ '(' := by
    rintro rfl
    exact absurd least (by decide)
  simp [Text.isBlank, noParen]
  omega

/-- A capital is made small by going 32 characters on. -/
theorem toNat_small {c : Char} (most : c.toNat ≤ 90) :
    (c.val + ('a'.val - 'A'.val)).toNat = c.toNat + 32 := by
  have most : c.val.toNat ≤ 90 := most
  have wraps : (c.val + ('a'.val - 'A'.val)).toNat = (c.val.toNat + 32) % 2 ^ 32 := by
    rw [UInt32.toNat_add]
    rfl
  have whole : c.toNat = c.val.toNat := rfl
  omega

theorem ends_toLower (c : Char) :
    (Text.isBlank c.toLower || c.toLower == '(') = (Text.isBlank c || c == '(') := by
  unfold Char.toLower
  split
  · rename_i upper
    have least : 65 ≤ c.toNat := upper.1
    have most : c.toNat ≤ 90 := upper.2
    have small := toNat_small most
    rw [letter_goes_on least (by omega), letter_goes_on]
    · exact le_trans (by omega) small.ge
    · exact le_trans small.le (by omega)
  · rfl

theorem map_toLower_bareName (name : String) :
    (bareName name).toList.map Char.toLower =
      (name.toList.map Char.toLower).takeWhile fun c => !(Text.isBlank c || c == '(') := by
  simp only [bareName, String.toList_ofList, List.takeWhile_map, Function.comp_def, ends_toLower]

/-- A name that equals an identifier is an identifier itself. -/
theorem sameFold_bareName {left right : String} (same : Text.sameFold (bareName left) right) :
    Text.sameFold (bareName left) (bareName right) := by
  simp only [Text.sameFold, beq_iff_eq] at same ⊢
  rw [map_toLower_bareName right, ← same, map_toLower_bareName, List.takeWhile_idem]

/-- The parameters after a name are no part of the identifier. -/
theorem bareName_append (name rest : String) : bareName (name ++ " " ++ rest) = bareName name := by
  have ends : (name ++ " " ++ rest).toList = name.toList ++ ' ' :: rest.toList := by simp
  rw [bareName, bareName, ends, List.takeWhile_append]
  split
  · rename_i whole
    rw [(List.takeWhile_prefix _).eq_of_length whole, List.takeWhile_cons_of_neg (by decide),
      List.append_nil]
  · rfl

end Clarion.Outline
