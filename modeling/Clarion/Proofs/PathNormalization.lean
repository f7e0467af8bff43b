import Clarion.Path
import Clarion.Proofs.Cutting

/-! Paths resolved by their spelling. What resolving leaves of a path are names, and before them
nothing but the root or a run of `..`; these are read back from the spelling they are given, so a
resolved path is resolved once and for all. A relative path adds its parts to those of the path it
is seen from, whatever separators the two are written with, and so resolving the first path early
changes nothing. -/
namespace Clarion

/-! ### Parts of written characters -/

namespace Part

variable {part : Part} {chars : List Char}

/-- Characters that are written as one name: neither a separator nor a part of another kind. -/
structure IsName (chars : List Char) : Prop where
  nonempty : chars ≠ []
  noDot : chars ≠ ['.']
  noDots : chars ≠ ['.', '.']
  noSlash : '/' ∉ chars

/-- A part that may stand anywhere in a path: a step up or a name. -/
def IsInner : Part → Prop
  | .up => True
  | .name chars => IsName chars
  | _ => False

theorem IsName.partOf? (isName : IsName chars) : Path.partOf? chars = some (.name chars) := by
  simp [Path.partOf?, isName.nonempty, isName.noDot, isName.noDots]

theorem IsInner.partOf?_chars (inner : part.IsInner) : Path.partOf? part.chars = some part := by
  cases part with
  | up => rfl
  | name chars => exact IsName.partOf? inner
  | root => exact inner.elim
  | here => exact inner.elim

theorem IsInner.nonempty (inner : part.IsInner) : part.chars ≠ [] := by
  cases part with
  | up => simp [Part.chars]
  | name chars => exact IsName.nonempty inner
  | root => exact inner.elim
  | here => exact inner.elim

theorem IsInner.noDot (inner : part.IsInner) : part.chars ≠ ['.'] := by
  cases part with
  | up => simp [Part.chars]
  | name chars => exact IsName.noDot inner
  | root => exact inner.elim
  | here => exact inner.elim

theorem IsInner.noSlash (inner : part.IsInner) : '/' ∉ part.chars := by
  cases part with
  | up => simp [Part.chars]
  | name chars => exact IsName.noSlash inner
  | root => exact inner.elim
  | here => exact inner.elim

end Part

namespace Path

variable {path base next : Path} {chars : List Char} {part first : Part} {others stack : List Part}
  {absolute : Bool}

/-- The parts that written characters stand for, where neither a root nor a `.` at the start
counts. -/
def innerParts (chars : List Char) : List Part :=
  (segments chars).filterMap partOf?

theorem innerParts_nil : innerParts [] = [] :=
  rfl

theorem innerParts_append_slash (left right : List Char) :
    innerParts (left ++ '/' :: right) = innerParts left ++ innerParts right := by
  rw [innerParts, segments, Text.splitChars_append_cons rfl, List.filterMap_append]
  rfl

theorem isInner_of_mem_innerParts (listed : part ∈ innerParts chars) : part.IsInner := by
  obtain ⟨segment, member, stands⟩ := List.mem_filterMap.mp listed
  rw [partOf?] at stands
  split at stands
  · cases stands
  · rename_i counts
    obtain ⟨nonempty, noDot⟩ := not_or.mp counts
    split at stands
    · cases stands
      trivial
    · rename_i noDots
      cases stands
      refine ⟨nonempty, noDot, noDots, fun slash => ?_⟩
      cases Text.not_test_of_mem_splitChars member slash

theorem partsOf_slash (rest : List Char) : partsOf ('/' :: rest) = .root :: innerParts rest := by
  have cut : segments ('/' :: rest) = [] :: segments rest := rfl
  rw [partsOf, cut, innerParts]
  cases others : segments rest with
  | nil => exact absurd others (Text.splitChars_ne_nil _ rest)
  | cons first others => rfl

/-- The first of several segments is empty only after a separator at the start. -/
theorem head?_of_segments {first : List Char} {others : List (List Char)}
    (cut : segments chars = [] :: first :: others) : chars.head? = some '/' := by
  cases chars with
  | nil => simp [segments, Text.splitChars] at cut
  | cons c rest =>
    rw [segments, Text.splitChars] at cut
    split at cut
    · rename_i slash
      simpa using slash
    · split at cut <;> simp at cut

/-- A relative path may start with a `.`, and all its other parts are inner ones. -/
theorem partsOf_relative (relative : chars.head? ≠ some '/') :
    partsOf chars =
      if (segments chars).head? = some ['.'] then .here :: innerParts chars
      else innerParts chars := by
  rw [partsOf, innerParts]
  split <;> rename_i cut
  · exact absurd cut (Text.splitChars_ne_nil _ chars)
  · rw [cut]
    rfl
  · rename_i rest several
    cases rest with
    | nil => exact absurd rfl several
    | cons first others => exact absurd (head?_of_segments cut) relative
  · rw [cut]
    rfl
  · rename_i first rest _ _ named
    rw [cut, if_neg]
    simpa using named

/-! ### Resolving the parts of a path and of a path seen from it -/

/-- What resolving leaves of a path, last part first. -/
def resolved (path : Path) : List Part :=
  path.parts.foldl resolvePart []

theorem normalize_eq (path : Path) : path.normalize = ofParts path.resolved.reverse :=
  rfl

/-- Only the inner parts of a path and whether it is absolute count for what it is resolved to. -/
theorem resolved_eq (path : Path) : path.resolved =
    (innerParts path.text.toList).foldl resolvePart (if path.isAbsolute then [.root] else []) := by
  rw [resolved, Path.parts, isAbsolute]
  cases path.text.toList with
  | nil => rfl
  | cons c rest =>
    by_cases slash : c = '/'
    · subst slash
      have inner : innerParts ('/' :: rest) = innerParts rest := innerParts_append_slash [] rest
      rw [partsOf_slash, inner]
      rfl
    · have relative : (c :: rest).head? ≠ some '/' := by simpa using slash
      have noRoot : ¬((c :: rest).head? == some '/') = true := by simpa using slash
      rw [partsOf_relative relative, if_neg noRoot]
      split <;> rfl

theorem isAbsolute_join (base next : Path) :
    (base.join next).isAbsolute = (next.isAbsolute || base.isAbsolute) := by
  rw [join]
  split
  · rename_i absolute
    rw [absolute, Bool.true_or]
  · rename_i relative
    rw [Bool.not_eq_true] at relative
    rw [relative, Bool.false_or]
    cases front : base.text.toList with
    | nil => simpa [isAbsolute, front] using relative
    | cons c rest => simp [isAbsolute, front]

/-- A relative path adds its inner parts to those of the path before it, whether or not that one
ends in a separator. -/
theorem innerParts_join (relative : next.isAbsolute = false) :
    innerParts (base.join next).text.toList =
      innerParts base.text.toList ++ innerParts next.text.toList := by
  rw [join, if_neg (by simp [relative]), String.toList_ofList]
  rcases List.eq_nil_or_concat base.text.toList with empty | ⟨front, last, whole⟩
  · rw [empty]
    rfl
  · rw [whole, List.concat_eq_append]
    by_cases slash : last = '/'
    · simp [slash, innerParts_append_slash, innerParts_nil]
    · have needed :
          (!(front ++ [last]).isEmpty && (front ++ [last]).getLast? != some '/') = true := by
        simp [slash]
      simp only [needed, ↓reduceIte]
      rw [List.append_assoc _ ['/'], List.singleton_append, innerParts_append_slash]

theorem innerParts_name (isName : Part.IsName chars) : innerParts chars = [.name chars] := by
  have whole : segments chars = [chars] :=
    Text.splitChars_of_none fun c member =>
      beq_false_of_ne fun slash => isName.noSlash (slash ▸ member)
  rw [innerParts, whole, List.filterMap_cons_some isName.partOf?, List.filterMap_nil]

/-- The inner parts are the last ones. -/
theorem exists_partsOf_eq (chars : List Char) :
    ∃ front, partsOf chars = front ++ innerParts chars := by
  by_cases slash : chars.head? = some '/'
  · obtain ⟨rest, rfl⟩ := List.head?_eq_some_iff.mp slash
    refine ⟨[.root], ?_⟩
    rw [partsOf_slash, ← List.nil_append ('/' :: rest), innerParts_append_slash, innerParts_nil]
    rfl
  · rw [partsOf_relative slash]
    split
    · exact ⟨[.here], rfl⟩
    · exact ⟨[], rfl⟩

/-- A name is the file name of what it names inside a path. -/
theorem fileName?_join {name : String} (base : Path) (isName : Part.IsName name.toList) :
    (base.join ⟨name⟩).fileName? = some name := by
  have relative : (Path.mk name).isAbsolute = false :=
    beq_false_of_ne fun slash => isName.noSlash (List.mem_of_head? slash)
  obtain ⟨front, whole⟩ := exists_partsOf_eq (base.join ⟨name⟩).text.toList
  rw [innerParts_join relative, innerParts_name isName, ← List.append_assoc] at whole
  rw [fileName?, parts, whole, List.getLast?_concat]
  exact congrArg some String.ofList_toList

theorem resolved_join (base next : Path) : (base.join next).resolved =
    if next.isAbsolute then next.resolved
    else (innerParts next.text.toList).foldl resolvePart base.resolved := by
  by_cases absolute : next.isAbsolute = true
  · rw [if_pos absolute, join, if_pos absolute]
  · rw [Bool.not_eq_true] at absolute
    rw [if_neg (by simp [absolute]), resolved_eq, isAbsolute_join, innerParts_join absolute,
      List.foldl_append, absolute, Bool.false_or, resolved_eq base]

/-! ### Parts that are resolved -/

/-- Where resolved parts start: at the root, or as many levels up as no name makes good. -/
def start (absolute : Bool) (climbs : Nat) : List Part :=
  if absolute then [.root] else List.replicate climbs .up

/-- Resolved parts: names, and before them nothing but a start. -/
def IsResolved (absolute : Bool) (parts : List Part) : Prop :=
  ∃ (climbs : Nat) (names : List (List Char)),
    parts = start absolute climbs ++ names.map .name ∧ ∀ name ∈ names, Part.IsName name

theorem start_reverse (absolute : Bool) (climbs : Nat) :
    (start absolute climbs).reverse = start absolute climbs := by
  cases absolute
  · exact List.reverse_replicate
  · rfl

/-- One step of resolving keeps to names after a start. -/
theorem IsResolved.resolvePart (settled : IsResolved absolute stack.reverse)
    (inner : part.IsInner) : IsResolved absolute (resolvePart stack part).reverse := by
  obtain ⟨climbs, names, written, isName⟩ := settled
  have order : stack = names.reverse.map .name ++ start absolute climbs := by
    rw [← stack.reverse_reverse, written, List.reverse_append, start_reverse, List.map_reverse]
  cases part with
  | name chars =>
    refine ⟨climbs, names ++ [chars], by simp [Path.resolvePart, written], ?_⟩
    exact List.forall_mem_append.mpr ⟨isName, List.forall_mem_singleton.mpr inner⟩
  | up =>
    rcases List.eq_nil_or_concat names with rfl | ⟨earlier, last, rfl⟩
    · cases absolute with
      | true => exact ⟨0, [], by simp [order, Path.resolvePart, start], isName⟩
      | false =>
        have climbed : Path.resolvePart stack .up = List.replicate (climbs + 1) .up := by
          cases climbs <;> simp [order, Path.resolvePart, start, List.replicate_succ]
        exact ⟨climbs + 1, [], by simp [climbed, start], isName⟩
    · refine ⟨climbs, earlier, by simp [order, Path.resolvePart, start_reverse], ?_⟩
      intro name member
      exact isName name (by simp [member])
  | root => exact inner.elim
  | here => exact inner.elim

theorem isResolved_resolved (path : Path) : IsResolved path.isAbsolute path.resolved.reverse := by
  rw [resolved_eq]
  have starts : IsResolved path.isAbsolute (if path.isAbsolute then [Part.root] else []).reverse :=
    ⟨0, [], by cases path.isAbsolute <;> rfl, by simp⟩
  have inner : ∀ part ∈ innerParts path.text.toList, part.IsInner :=
    fun part => isInner_of_mem_innerParts
  generalize (if path.isAbsolute then [Part.root] else []) = stack at starts
  generalize innerParts path.text.toList = parts at inner
  induction parts generalizing stack with
  | nil => exact starts
  | cons part parts ih =>
    obtain ⟨here, later⟩ := List.forall_mem_cons.mp inner
    exact ih _ (starts.resolvePart here) later

/-! ### The spelling of resolved parts -/

theorem segments_joinSegments {first : List Char} {others : List (List Char)}
    (plain : ∀ segment ∈ first :: others, '/' ∉ segment) :
    segments (joinSegments (first :: others)) = first :: others := by
  have alone {segment : List Char} (noSlash : '/' ∉ segment) : segments segment = [segment] := by
    refine Text.splitChars_of_none fun c member => ?_
    simpa using fun slash : c = '/' => noSlash (slash ▸ member)
  induction others generalizing first with
  | nil => exact alone (plain first List.mem_cons_self)
  | cons second others ih =>
    obtain ⟨here, later⟩ := List.forall_mem_cons.mp plain
    rw [joinSegments, segments, Text.splitChars_append_cons rfl]
    · exact congr (congrArg _ (alone here)) (ih later)
    · simp

theorem segments_spelled (inner : ∀ part ∈ first :: others, part.IsInner) :
    segments (joinSegments ((first :: others).map Part.chars)) =
      (first :: others).map Part.chars := by
  refine segments_joinSegments ?_
  rw [← List.map_cons, List.forall_mem_map]
  exact fun part member => (inner part member).noSlash

theorem innerParts_spelled {parts : List Part} (inner : ∀ part ∈ parts, part.IsInner) :
    innerParts (joinSegments (parts.map Part.chars)) = parts := by
  cases parts with
  | nil => rfl
  | cons first others =>
    have stands : ∀ part ∈ first :: others, (partOf? ∘ Part.chars) part = some part :=
      fun part member => (inner part member).partOf?_chars
    rw [innerParts, segments_spelled inner, List.filterMap_map, List.filterMap_congr stands,
      List.filterMap_some]

theorem spelled_relative (others : List Part) (inner : first.IsInner) :
    (joinSegments ((first :: others).map Part.chars)).head? ≠ some '/' := by
  obtain ⟨c, rest, written⟩ := List.exists_cons_of_ne_nil inner.nonempty
  have noSlash : ¬c = '/' := fun slash => inner.noSlash (by simp [written, slash])
  cases others <;> simpa [joinSegments, written] using noSlash

theorem ofParts_absolute (parts : List Part) :
    (ofParts (.root :: parts)).text.toList = '/' :: joinSegments (parts.map Part.chars) := by
  cases parts <;> exact String.toList_ofList

theorem ofParts_relative (others : List Part) (inner : first.IsInner) :
    (ofParts (first :: others)).text.toList =
      joinSegments ((first :: others).map Part.chars) := by
  cases first with
  | up => exact String.toList_ofList
  | name chars => exact String.toList_ofList
  | root => exact inner.elim
  | here => exact inner.elim

theorem isInner_of_mem_climbs (climbs : Nat) {names : List (List Char)}
    (isName : ∀ name ∈ names, Part.IsName name) :
    ∀ part ∈ start false climbs ++ names.map .name, part.IsInner := by
  refine List.forall_mem_append.mpr ⟨fun part member => ?_, List.forall_mem_map.mpr isName⟩
  rw [List.eq_of_mem_replicate member]
  trivial

/-- Resolved parts are read back from their spelling; no part at all is spelled as a `.`. -/
theorem parts_ofParts {parts : List Part} (settled : IsResolved absolute parts) :
    (ofParts parts).parts = (if parts = [] then [.here] else parts) ∧
      (ofParts parts).isAbsolute = absolute := by
  obtain ⟨climbs, names, rfl, isName⟩ := settled
  have named : ∀ part ∈ names.map Part.name, part.IsInner := List.forall_mem_map.mpr isName
  cases absolute with
  | true =>
    change (ofParts (.root :: names.map .name)).parts = .root :: names.map .name ∧
      (ofParts (.root :: names.map .name)).isAbsolute = true
    rw [Path.parts, isAbsolute, ofParts_absolute, partsOf_slash, innerParts_spelled named]
    exact ⟨rfl, rfl⟩
  | false =>
    have inner := isInner_of_mem_climbs climbs isName
    cases parts : start false climbs ++ names.map Part.name with
    | nil => exact ⟨by decide, by decide⟩
    | cons first others =>
      rw [parts] at inner
      have here := inner first List.mem_cons_self
      have relative := spelled_relative others here
      rw [Path.parts, isAbsolute, ofParts_relative others here, partsOf_relative relative,
        innerParts_spelled inner, segments_spelled inner]
      exact ⟨by simp [here.noDot], by simpa using relative⟩

theorem dot_not_mem_spelled {parts : List Part} (inner : ∀ part ∈ parts, part.IsInner) :
    ['.'] ∉ segments (joinSegments (parts.map Part.chars)) := by
  cases parts with
  | nil => decide
  | cons first others =>
    rw [segments_spelled inner]
    intro dot
    obtain ⟨part, member, written⟩ := List.mem_map.mp dot
    exact (inner part member).noDot written

/-- Resolved parts are spelled without a `.`, unless there are none. -/
theorem dot_not_mem_ofParts {parts : List Part} (settled : IsResolved absolute parts)
    (some : parts ≠ []) : ['.'] ∉ segments (ofParts parts).text.toList := by
  obtain ⟨climbs, names, rfl, isName⟩ := settled
  cases absolute with
  | true =>
    have named : ∀ part ∈ names.map Part.name, part.IsInner := List.forall_mem_map.mpr isName
    have spelling := ofParts_absolute (names.map Part.name)
    change ['.'] ∉ segments (ofParts (.root :: names.map .name)).text.toList
    rw [spelling]
    intro dot
    rcases List.mem_cons.mp dot with first | later
    · cases first
    · exact dot_not_mem_spelled named later
  | false =>
    have inner := isInner_of_mem_climbs climbs isName
    cases parts : start false climbs ++ names.map Part.name with
    | nil => exact absurd parts some
    | cons first others =>
      rw [parts] at inner
      rw [ofParts_relative others (inner first List.mem_cons_self)]
      exact dot_not_mem_spelled inner

theorem foldl_climbs (climbs : Nat) :
    (List.replicate climbs Part.up).foldl resolvePart [] = List.replicate climbs .up := by
  induction climbs with
  | zero => rfl
  | succ climbs ih =>
    have climbed : resolvePart (List.replicate climbs .up) .up = .up :: List.replicate climbs .up := by
      cases climbs <;> simp [resolvePart, List.replicate_succ]
    rw [List.replicate_succ', List.foldl_append, ih, List.foldl_cons, List.foldl_nil, climbed,
      ← List.replicate_succ, List.replicate_succ']

theorem foldl_names (names : List (List Char)) (stack : List Part) :
    (names.map Part.name).foldl resolvePart stack = (names.map Part.name).reverse ++ stack := by
  induction names generalizing stack with
  | nil => rfl
  | cons name names ih =>
    rw [List.map_cons, List.foldl_cons, ih]
    simp [resolvePart]

/-- Resolving leaves resolved parts as they are. -/
theorem foldl_resolvePart {parts : List Part} (settled : IsResolved absolute parts) :
    parts.foldl resolvePart [] = parts.reverse := by
  obtain ⟨climbs, names, rfl, -⟩ := settled
  have started : (start absolute climbs).foldl resolvePart [] = start absolute climbs := by
    cases absolute
    · exact foldl_climbs climbs
    · rfl
  rw [List.foldl_append, started, foldl_names, List.reverse_append, start_reverse]

theorem resolved_ofParts {parts : List Part} (settled : IsResolved absolute parts) :
    (ofParts parts).resolved = parts.reverse := by
  rw [resolved, (parts_ofParts settled).1]
  split
  · rename_i nothing
    rw [nothing]
    rfl
  · exact foldl_resolvePart settled

theorem resolved_normalize (path : Path) : path.normalize.resolved = path.resolved := by
  rw [normalize_eq, resolved_ofParts (isResolved_resolved path), List.reverse_reverse]

theorem parts_normalize (path : Path) : path.normalize.parts =
    if path.resolved = [] then [.here] else path.resolved.reverse := by
  rw [normalize_eq, (parts_ofParts (isResolved_resolved path)).1]
  simp only [List.reverse_eq_nil_iff]

theorem isAbsolute_normalize (path : Path) : path.normalize.isAbsolute = path.isAbsolute :=
  (parts_ofParts (isResolved_resolved path)).2

theorem normalize_congr {other : Path} (same : path.resolved = other.resolved) :
    path.normalize = other.normalize := by
  rw [normalize_eq, same, normalize_eq]

theorem normalize_normalize (path : Path) : path.normalize.normalize = path.normalize :=
  normalize_congr (resolved_normalize path)

theorem normalize_join (path next : Path) :
    (path.normalize.join next).normalize = (path.join next).normalize := by
  apply normalize_congr
  rw [resolved_join, resolved_join, resolved_normalize]

/-! ### Seen from a base -/

theorem resolveAgainst_eq (base path : Path) :
    base.resolveAgainst path = (base.join path).normalize := by
  rw [resolveAgainst, join]
  split <;> rfl

/-- Three paths are put together alike in either order. -/
theorem resolved_join_join (base path next : Path) :
    ((base.join path).join next).resolved = (base.join (path.join next)).resolved := by
  by_cases rooted : next.isAbsolute = true
  · have whole : path.join next = next := if_pos rooted
    rw [whole, resolved_join, if_pos rooted, resolved_join, if_pos rooted]
  · rw [Bool.not_eq_true] at rooted
    have kept : (path.join next).isAbsolute = path.isAbsolute := by
      rw [isAbsolute_join, rooted, Bool.false_or]
    rw [resolved_join, resolved_join, resolved_join, resolved_join, kept,
      innerParts_join rooted, List.foldl_append]
    simp only [rooted, Bool.false_eq_true, ↓reduceIte]
    split <;> rfl

theorem resolveAgainst_resolveAgainst (base path next : Path) :
    (base.resolveAgainst path).resolveAgainst next = base.resolveAgainst (path.join next) := by
  rw [resolveAgainst_eq, resolveAgainst_eq, resolveAgainst_eq, normalize_join]
  exact normalize_congr (resolved_join_join base path next)

/-! ### Normal paths -/

theorem normalize_ne_empty (path : Path) : path.normalize.text ≠ "" := by
  intro empty
  have nothing : path.normalize.parts = [] := by
    rw [Path.parts, empty]
    rfl
  rw [parts_normalize] at nothing
  split at nothing
  · cases nothing
  · rename_i some
    exact some (List.reverse_eq_nil_iff.mp nothing)

/-- A `.` is written only for no part at all. -/
theorem normalize_of_dot (path : Path) (dot : ['.'] ∈ segments path.normalize.text.toList) :
    path.normalize = ⟨"."⟩ := by
  rw [normalize_eq] at dot ⊢
  by_cases nothing : path.resolved.reverse = []
  · rw [nothing]
    rfl
  · exact absurd dot (dot_not_mem_ofParts (isResolved_resolved path) nothing)

/-- Steps up stand at the start of a relative path alone. -/
theorem climbs_normalize (path : Path) :
    ∃ climbs later, path.normalize.parts = List.replicate climbs .up ++ later ∧ .up ∉ later ∧
      (path.isAbsolute → climbs = 0) := by
  obtain ⟨climbs, names, settled, -⟩ := isResolved_resolved path
  rw [parts_normalize]
  by_cases nothing : path.resolved = []
  · exact ⟨0, [.here], by simp [nothing], by simp, fun _ => rfl⟩
  · rw [if_neg nothing, settled]
    cases path.isAbsolute with
    | true => exact ⟨0, .root :: names.map .name, rfl, by simp, fun _ => rfl⟩
    | false => exact ⟨climbs, names.map .name, rfl, by simp, by simp⟩

/-- The spelling of a normal path is that of its parts. -/
theorem ofParts_normalize (path : Path) : ofParts path.normalize.parts = path.normalize := by
  rw [parts_normalize, normalize_eq]
  split
  · rename_i nothing
    rw [nothing]
    rfl
  · rfl

theorem parts_normalize_of_resolved (some : path.parts ≠ [])
    (settled : IsResolved path.isAbsolute path.parts) : path.normalize.parts = path.parts := by
  have kept : path.resolved = path.parts.reverse := foldl_resolvePart settled
  rw [parts_normalize, kept, List.reverse_reverse, if_neg (by simpa using some)]

/-- A step up makes good the name before it. -/
theorem normalize_join_name_up (path : Path) {name : List Char} (isName : Part.IsName name) :
    (path.join ⟨String.ofList (name ++ ['/', '.', '.'])⟩).normalize = path.normalize := by
  have alone : innerParts name = [.name name] := by
    have single := segments_joinSegments (List.forall_mem_singleton.mpr isName.noSlash)
    have cut : segments name = [name] := single
    rw [innerParts, cut, List.filterMap_cons, isName.partOf?]
    rfl
  have both : innerParts (name ++ ['/', '.', '.']) = [.name name, .up] := by
    rw [innerParts_append_slash, alone]
    rfl
  obtain ⟨c, rest, written⟩ := List.exists_cons_of_ne_nil isName.nonempty
  have relative : ¬Path.isAbsolute ⟨String.ofList (name ++ ['/', '.', '.'])⟩ = true := by
    have noSlash : ¬c = '/' := fun slash => isName.noSlash (by simp [written, slash])
    simpa [isAbsolute, written] using noSlash
  apply normalize_congr
  rw [resolved_join, if_neg relative, String.toList_ofList, both]
  rfl

/-- The normal form of a path is written without a `.`, unless that is all it is written as, and
with `..` only at the start, where the path is relative; it is absolute just when the path is, it is
the one spelling of its parts, and resolving leaves it as it is. Parts that are resolved are kept,
and a name goes with the step up after it. A path may be resolved before another one is seen from
it, or after: so resolving against a base, and what is found there again, is resolving both paths
together. -/
theorem normalization_is_canonical (path : Path) :
    let normal := path.normalize
    normal.text ≠ "" ∧
      (['.'] ∈ segments normal.text.toList → normal = ⟨"."⟩) ∧
      normal.isAbsolute = path.isAbsolute ∧
      (∃ climbs later, normal.parts = List.replicate climbs .up ++ later ∧ .up ∉ later ∧
        (path.isAbsolute → climbs = 0)) ∧
      normal.normalize = normal ∧ ofParts normal.parts = normal ∧
      (path.parts ≠ [] → IsResolved path.isAbsolute path.parts → normal.parts = path.parts) ∧
      (∀ name, Part.IsName name →
        (path.join ⟨String.ofList (name ++ ['/', '.', '.'])⟩).normalize = normal) ∧
      (∀ next, (normal.join next).normalize = (path.join next).normalize) ∧
      ∀ base next : Path,
        (base.resolveAgainst path).resolveAgainst next = base.resolveAgainst (path.join next) := by
  intro normal
  refine ⟨normalize_ne_empty path, normalize_of_dot path, isAbsolute_normalize path,
    climbs_normalize path, normalize_normalize path, ofParts_normalize path,
    parts_normalize_of_resolved, fun name isName => normalize_join_name_up path isName, ?_, ?_⟩
  · exact normalize_join path
  · exact fun base next => resolveAgainst_resolveAgainst base path next

theorem climbing_path_is_normalized :
    let path : Path := ⟨"../lib"⟩
    let hidden : Path := ⟨".//"⟩
    let rooted : Path := ⟨"/../app//./inc/"⟩
    path.normalize.parts = [.up, .name "lib".toList] ∧
      (path.join ⟨"win/.."⟩).normalize = path ∧
      hidden.normalize = ⟨"."⟩ ∧
      .up ∉ rooted.normalize.parts := by
  intro path hidden rooted
  obtain ⟨-, -, -, -, -, -, kept, cancels, -⟩ := normalization_is_canonical path
  obtain ⟨-, dot, -⟩ := normalization_is_canonical hidden
  obtain ⟨-, -, -, ⟨climbs, later, written, noClimb, none⟩, -⟩ := normalization_is_canonical rooted
  have win : Part.IsName "win".toList := ⟨by decide, by decide, by decide, by decide⟩
  have settled : IsResolved path.isAbsolute path.parts :=
    ⟨1, ["lib".toList], by decide +kernel, by
      rw [List.forall_mem_singleton]
      exact ⟨by decide, by decide, by decide, by decide⟩⟩
  refine ⟨?_, ?_, dot (by decide +kernel), ?_⟩
  · exact (kept (by decide +kernel) settled).trans (by decide +kernel)
  · exact (cancels "win".toList win).trans (by decide +kernel)
  · rw [written, none (by decide +kernel)]
    exact noClimb

end Path
end Clarion
