import Mathlib
import YangSchema.Statement.Path
import YangSchema.Proofs.Except
import YangSchema.Proofs.Text.Pieces

/-!
# Leafref paths as they are written

Between its slashes a path has pieces:  a blank one in front of the steps of an absolute
path, `..` for each level that a relative one climbs, and then the steps, each a name with
predicates behind it.  A path is read as it is written in this way.  The reader drops
predicates before it looks for slashes and names, so it also accepts texts with predicates
anywhere else.
-/

namespace YangSchema

/-! ## Names -/

theorem Identifier.isBlank_of_isContinuation {c : Char}
    (continues : isContinuation c = true) : Text.isBlank c = false := by
  have code : (65 ≤ c.toNat ∧ c.toNat ≤ 90 ∨ 97 ≤ c.toNat ∧ c.toNat ≤ 122 ∨
      48 ≤ c.toNat ∧ c.toNat ≤ 57) ∨ c = '_' ∨ c = '-' ∨ c = '.' := by
    simpa [isContinuation, Char.isAlphanum, Char.isAlpha, Char.isUpper,
      Char.isLower, Char.isDigit, UInt32.le_iff_toNat_le, or_assoc] using continues
  obtain letter | rfl | rfl | rfl := code
  · simp only [Text.isBlank, Bool.or_eq_false_iff, Bool.and_eq_false_iff,
      decide_eq_false_iff_not, beq_eq_false_iff_ne, ne_eq]
    omega
  all_goals decide

theorem Identifier.isContinuation_of_isValid {text : List Char}
    (valid : isValid text = true) : ∀ c ∈ text, isContinuation c = true := by
  cases text with
  | nil => simp
  | cons first rest =>
      simp only [isValid, Bool.and_eq_true, Bool.or_eq_true, beq_iff_eq,
        List.all_eq_true] at valid
      obtain ⟨⟨head, -⟩, others⟩ := valid
      refine List.forall_mem_cons.mpr ⟨?_, others⟩
      obtain letter | rfl := head
      · simp [isContinuation, Char.isAlphanum, letter]
      · decide

/-- Nothing in an identifier is blank or stands between names. -/
theorem Identifier.solid {text : List Char} (valid : isValid text = true) :
    ∀ c ∈ text, Text.isBlank c = false ∧ c ∉ ['/', ':', '[', ']'] := by
  intro c member
  have continues := isContinuation_of_isValid valid c member
  refine ⟨isBlank_of_isContinuation continues, fun mark => ?_⟩
  fin_cases mark <;> revert continues <;> decide

namespace QualifiedName

variable {name : QualifiedName} {text : List Char}

/-- Its qualifier and its own name are identifiers. -/
def IsValid (name : QualifiedName) : Prop :=
  (∀ qualifier ∈ name.qualifier, isIdentifier qualifier = true) ∧
    isIdentifier name.name = true

theorem ofCharacters?_eq_some_iff :
    ofCharacters? text = some name ↔ name.IsValid ∧ text = name.text.toList := by
  constructor
  · intro read
    unfold ofCharacters? at read
    split at read
    next qualifier own cut =>
      split at read
      next valid =>
        obtain rfl := Option.some.inj read
        simpa [IsValid, isIdentifier, QualifiedName.text, Text.of_cutAt cut] using valid
      · simp at read
    · split at read
      next valid =>
        obtain rfl := Option.some.inj read
        simp [IsValid, isIdentifier, QualifiedName.text, valid]
      · simp at read
  · rintro ⟨⟨qualified, valid⟩, rfl⟩
    obtain ⟨qualifier, own⟩ := name
    have free {part : String} (valid : isIdentifier part = true) :
        ':' ∉ part.toList := fun member => by
      simpa using (Identifier.solid valid _ member).2
    cases qualifier with
    | none =>
        have cut := Text.cutAt_eq_none (free valid)
        rw [isIdentifier] at valid
        simp [ofCharacters?, QualifiedName.text, cut, valid]
    | some qualifier =>
        have valid' := qualified qualifier rfl
        have cut := Text.cutAt_append (free valid') own.toList
        rw [isIdentifier] at valid valid'
        simp [ofCharacters?, QualifiedName.text, cut, valid, valid']

theorem IsValid.solid (valid : name.IsValid) :
    ∀ c ∈ name.text.toList, Text.isBlank c = false ∧ c ∉ ['/', '[', ']'] := by
  obtain ⟨qualifier, own⟩ := name
  have part {part : String} (valid : isIdentifier part = true) :
      ∀ c ∈ part.toList, Text.isBlank c = false ∧ c ∉ ['/', '[', ']'] := by
    intro c member
    obtain ⟨solid, apart⟩ := Identifier.solid valid c member
    exact ⟨solid, by simp_all⟩
  have colon : ":".toList = [':'] := rfl
  cases qualifier with
  | none => exact part valid.2
  | some qualifier =>
      simp only [QualifiedName.text, String.toList_append, List.forall_mem_append,
        colon, List.forall_mem_singleton]
      exact ⟨⟨part (valid.1 qualifier rfl), by decide⟩, part valid.2⟩

theorem IsValid.isTrim (valid : name.IsValid) : Text.IsTrim name.text.toList where
  head c first := (valid.solid c (List.mem_of_mem_head? first)).1
  last c last := (valid.solid c (List.mem_of_mem_getLast? last)).1

theorem IsValid.not_mem (valid : name.IsValid) :
    name.text.toList ∉ [[], ['.', '.']] := by
  intro member
  have read := ofCharacters?_eq_some_iff.mpr ⟨valid, rfl⟩
  generalize name.text.toList = text at member read
  fin_cases member <;>
    simp [ofCharacters?, Text.cutAt, Identifier.isValid] at read

/-- A name with blanks around it. -/
def IsBare (name : QualifiedName) (piece : List Char) : Prop :=
  name.IsValid ∧ Text.Pads name.text.toList piece

theorem ofCharacters?_trim_iff :
    ofCharacters? (Text.trim text) = some name ↔ name.IsBare text := by
  rw [ofCharacters?_eq_some_iff]
  constructor
  · rintro ⟨valid, trimmed⟩
    exact ⟨valid, trimmed ▸ Text.pads_trim text⟩
  · rintro ⟨valid, pads⟩
    exact ⟨valid, pads.trim_eq_inner valid.isTrim⟩

theorem IsBare.not_mem (bare : name.IsBare text) {c : Char}
    (mark : c ∈ ['/', '[', ']']) : c ∉ text := by
  intro member
  obtain member | blank := bare.2.mem member
  · exact (bare.1.solid c member).2 mark
  · revert blank
    fin_cases mark <;> decide

theorem IsBare.not_areBlank (bare : name.IsBare text) : ¬ Text.AreBlank text := by
  intro blank
  have trimmed := bare.2.trim_eq_inner bare.1.isTrim
  refine bare.1.not_mem ?_
  simp [← trimmed, Text.trim, Text.trimEnd, Text.trimStart_of_areBlank blank]

end QualifiedName

namespace Path

variable {path : String} {depth : Nat} {text left rest inner : List Char}

/-! ## Predicates -/

/-- The brackets in it are closed in turn, and there are no others that close. -/
inductive IsBalanced : List Char → Prop
  | nil : IsBalanced []
  | plain {c : Char} {text : List Char} (opening : c ≠ '[') (closing : c ≠ ']')
      (rest : IsBalanced text) : IsBalanced (c :: text)
  | nest {inner text : List Char} (inside : IsBalanced inner)
      (rest : IsBalanced text) : IsBalanced ('[' :: (inner ++ ']' :: text))

/-- Any number of predicates, with blanks around each. -/
inductive ArePredicates : List Char → Prop
  | nil : ArePredicates []
  | blank {c : Char} {text : List Char} (blank : Text.isBlank c = true)
      (rest : ArePredicates text) : ArePredicates (c :: text)
  | predicate {inner text : List Char} (inside : IsBalanced inner)
      (rest : ArePredicates text) : ArePredicates ('[' :: (inner ++ ']' :: text))

/-- What is left of a text without the predicates in it. -/
inductive Drops : List Char → List Char → Prop
  | nil : Drops [] []
  | keep {c : Char} {text left : List Char} (opening : c ≠ '[') (closing : c ≠ ']')
      (rest : Drops text left) : Drops (c :: text) (c :: left)
  | predicate {inner text left : List Char} (inside : IsBalanced inner)
      (rest : Drops text left) : Drops ('[' :: (inner ++ ']' :: text)) left

theorem stripPredicates_balanced (balanced : IsBalanced inner) (rest : List Char) :
    stripPredicates path (depth + 1) (inner ++ rest) =
      stripPredicates path (depth + 1) rest := by
  induction balanced generalizing depth rest with
  | nil => rfl
  | plain opening closing _ ih =>
      rw [List.cons_append, stripPredicates, if_neg (by simp), ih]
      · exact opening
      · exact closing
  | @nest inner text inside _ ihInside ih =>
      rw [List.cons_append, List.append_assoc, List.cons_append, stripPredicates,
        ihInside, stripPredicates, if_neg (by simp), Nat.add_sub_cancel, ih]

/-- Inside of brackets the rest begins behind the one that closes them. -/
theorem exists_closing (stripped : stripPredicates path (depth + 1) text = .ok left) :
    ∃ inner rest, IsBalanced inner ∧ text = inner ++ ']' :: rest ∧
      stripPredicates path depth rest = .ok left := by
  induction size : text.length using Nat.strongRecOn generalizing depth text with
  | _ size ih =>
      subst size
      unfold stripPredicates at stripped
      split at stripped
      · simp at stripped
      next rest =>
        obtain ⟨first, middle, balanced, rfl, outer⟩ :=
          ih rest.length (by simp) stripped rfl
        obtain ⟨second, last, balanced', rfl, outer'⟩ :=
          ih middle.length (by simp; omega) outer rfl
        exact ⟨_, last, .nest balanced balanced', by simp, outer'⟩
      next rest =>
        rw [if_neg (by simp), Nat.add_sub_cancel] at stripped
        exact ⟨[], rest, .nil, rfl, stripped⟩
      next c rest opening closing =>
        rw [if_neg (by simp)] at stripped
        obtain ⟨inner, last, balanced, rfl, outer⟩ :=
          ih rest.length (by simp) stripped rfl
        exact ⟨c :: inner, last, .plain opening closing balanced, rfl, outer⟩

theorem stripPredicates_eq_ok_iff :
    stripPredicates path 0 text = .ok left ↔ Drops text left := by
  constructor
  · intro stripped
    induction size : text.length using Nat.strongRecOn generalizing text left with
    | _ size ih =>
        subst size
        unfold stripPredicates at stripped
        split at stripped
        · simp only [if_true, Except.ok.injEq] at stripped
          exact stripped ▸ .nil
        next rest =>
          obtain ⟨inner, last, balanced, rfl, outer⟩ := exists_closing stripped
          exact .predicate balanced (ih last.length (by simp; omega) outer rfl)
        · simp at stripped
        next c rest opening closing =>
          rw [if_pos rfl] at stripped
          obtain ⟨kept, inside, rfl⟩ := map_eq_ok_iff.mp stripped
          exact .keep opening closing (ih rest.length (by simp) inside rfl)
  · intro drops
    induction drops with
    | nil => rfl
    | keep opening closing _ ih =>
        rw [stripPredicates, if_pos rfl, ih]
        · rfl
        · exact opening
        · exact closing
    | predicate inside _ ih =>
        rw [stripPredicates, stripPredicates_balanced inside, stripPredicates,
          if_neg (by simp), Nat.add_sub_cancel, ih]

theorem Drops.eq (drops : Drops text left) {left' : List Char}
    (drops' : Drops text left') : left = left' := by
  have stripped : stripPredicates "" 0 text = .ok left :=
    stripPredicates_eq_ok_iff.mpr drops
  have stripped' : stripPredicates "" 0 text = .ok left' :=
    stripPredicates_eq_ok_iff.mpr drops'
  exact Except.ok.inj (stripped.symm.trans stripped')

theorem Drops.append (drops : Drops text left) {text' left' : List Char}
    (drops' : Drops text' left') : Drops (text ++ text') (left ++ left') := by
  induction drops with
  | nil => exact drops'
  | keep opening closing _ ih => exact .keep opening closing ih
  | @predicate inner text left inside _ ih =>
      rw [List.cons_append, List.append_assoc, List.cons_append]
      exact .predicate inside ih

theorem drops_self (opening : '[' ∉ text) (closing : ']' ∉ text) :
    Drops text text := by
  induction text with
  | nil => exact .nil
  | cons c rest ih =>
      simp only [List.mem_cons, not_or] at opening closing
      exact .keep (Ne.symm opening.1) (Ne.symm closing.1) (ih opening.2 closing.2)

theorem Drops.intercalate {pieces lefts : List (List Char)}
    (each : List.Forall₂ Drops pieces lefts) :
    Drops (['/'].intercalate pieces) (['/'].intercalate lefts) := by
  induction each with
  | nil => exact .nil
  | @cons piece left pieces lefts drops others ih =>
      cases others with
      | nil => simpa using drops
      | cons =>
          rw [List.intercalate_cons_cons, List.intercalate_cons_cons]
          exact (drops.append (drops_self (by simp) (by simp))).append ih

theorem isBalanced_of_free (opening : '[' ∉ text) (closing : ']' ∉ text) :
    IsBalanced text := by
  induction text with
  | nil => exact .nil
  | cons c rest ih =>
      simp only [List.mem_cons, not_or] at opening closing
      exact .plain (Ne.symm opening.1) (Ne.symm closing.1) (ih opening.2 closing.2)

theorem ArePredicates.of_areBlank_append {blanks : List Char}
    (blank : Text.AreBlank blanks) (predicates : ArePredicates text) :
    ArePredicates (blanks ++ text) := by
  induction blanks with
  | nil => exact predicates
  | cons c rest ih =>
      obtain ⟨here, there⟩ := List.forall_mem_cons.mp blank
      exact .blank here (ih there)

theorem ArePredicates.drops (predicates : ArePredicates text) :
    ∃ blanks, Text.AreBlank blanks ∧ Drops text blanks := by
  induction predicates with
  | nil => exact ⟨[], Text.areBlank_nil, .nil⟩
  | @blank c text blank _ ih =>
      obtain ⟨blanks, areBlank, drops⟩ := ih
      refine ⟨c :: blanks, List.forall_mem_cons.mpr ⟨blank, areBlank⟩, ?_⟩
      exact .keep (by rintro rfl; revert blank; decide)
        (by rintro rfl; revert blank; decide) drops
  | predicate inside _ ih =>
      obtain ⟨blanks, areBlank, drops⟩ := ih
      exact ⟨blanks, areBlank, .predicate inside drops⟩

end Path

/-! ## The pieces of a path -/

namespace QualifiedName

/-- A name with blanks in front of it and predicates behind it. -/
def IsStep (name : QualifiedName) (piece : List Char) : Prop :=
  name.IsValid ∧ ∃ before predicates, Text.AreBlank before ∧
    Path.ArePredicates predicates ∧ piece = before ++ name.text.toList ++ predicates

end QualifiedName

namespace Path

/-- Two points, with blanks in front of them. -/
def IsClimb (piece : List Char) : Prop :=
  ∃ before, Text.AreBlank before ∧ piece = before ++ ['.', '.']

end Path

namespace LeafrefPath

/-- The pieces between the slashes of a path:  a blank one in front of the steps of an
absolute path, one that climbs for each level of a relative path, and then the steps in
some form. -/
inductive IsLaidOut (IsStep : QualifiedName → List Char → Prop) :
    LeafrefPath → List (List Char) → Prop
  | absolute {names : List QualifiedName} {before : List Char}
      {pieces : List (List Char)} (blank : Text.AreBlank before) (some : names ≠ [])
      (steps : List.Forall₂ IsStep names pieces) :
      IsLaidOut IsStep ⟨true, 0, names⟩ (before :: pieces)
  | relative {names : List QualifiedName} {climbs pieces : List (List Char)}
      (climb : ∀ piece ∈ climbs, Path.IsClimb piece) (upward : climbs ≠ [])
      (some : names ≠ []) (steps : List.Forall₂ IsStep names pieces) :
      IsLaidOut IsStep ⟨false, climbs.length, names⟩ (climbs ++ pieces)

/-- How a path is written:  its pieces with slashes between them, predicates behind the
names of the steps. -/
def IsSpelled (path : LeafrefPath) (text : List Char) : Prop :=
  ∃ pieces, path.IsLaidOut QualifiedName.IsStep pieces ∧
    text = ['/'].intercalate pieces

variable {path : LeafrefPath} {names : List QualifiedName}
  {climbs pieces lefts : List (List Char)}
  {First Second : QualifiedName → List Char → Prop}
  {Alike : List Char → List Char → Prop}

theorem ne_nil_of_steps (some : names ≠ []) (steps : List.Forall₂ First names pieces) :
    pieces ≠ [] := by
  rintro rfl
  exact some (List.forall₂_nil_right_iff.mp steps)

theorem transfer_steps (steps : List.Forall₂ First names pieces)
    (alike : List.Forall₂ Alike pieces lefts)
    (step : ∀ name piece left, Alike piece left → First name piece →
      Second name left) : List.Forall₂ Second names lefts := by
  induction steps generalizing lefts with
  | nil =>
      cases alike
      exact .nil
  | cons here _ ih =>
      cases alike with
      | cons same others => exact .cons (step _ _ _ same here) (ih others)

theorem transfer_climbs (climbing : ∀ piece ∈ climbs, Path.IsClimb piece)
    (alike : List.Forall₂ Alike (climbs ++ pieces) lefts)
    (climb : ∀ piece left, Alike piece left → Path.IsClimb piece →
      Path.IsClimb left) :
    ∃ climbs' pieces', lefts = climbs' ++ pieces' ∧ climbs'.length = climbs.length ∧
      (∀ piece ∈ climbs', Path.IsClimb piece) ∧
      List.Forall₂ Alike pieces pieces' := by
  induction climbs generalizing lefts with
  | nil => exact ⟨[], lefts, rfl, rfl, by simp, alike⟩
  | cons first climbs ih =>
      obtain ⟨here, there⟩ := List.forall_mem_cons.mp climbing
      cases alike with
      | @cons _ left _ _ same others =>
          obtain ⟨climbs', pieces', rfl, size, climbing', alike'⟩ := ih there others
          refine ⟨left :: climbs', pieces', rfl, by simp [size], ?_, alike'⟩
          exact List.forall_mem_cons.mpr ⟨climb _ _ same here, climbing'⟩

theorem IsLaidOut.ne_nil (laid : path.IsLaidOut First pieces) : pieces ≠ [] := by
  cases laid with
  | absolute => simp
  | relative _ upward => simp [upward]

/-- A layout carries over to other pieces that are blank, climb and are steps where the
first ones do so. -/
theorem IsLaidOut.transfer (laid : path.IsLaidOut First pieces)
    (alike : List.Forall₂ Alike pieces lefts)
    (blank : ∀ piece left, Alike piece left → Text.AreBlank piece →
      Text.AreBlank left)
    (climb : ∀ piece left, Alike piece left → Path.IsClimb piece →
      Path.IsClimb left)
    (step : ∀ name piece left, Alike piece left → First name piece →
      Second name left) :
    path.IsLaidOut Second lefts := by
  cases laid with
  | absolute isBlank some steps =>
      cases alike with
      | cons same others =>
          exact .absolute (blank _ _ same isBlank) some
            (transfer_steps steps others step)
  | @relative names climbs pieces climbing upward some steps =>
      obtain ⟨climbs', pieces', rfl, size, climbing', alike'⟩ :=
        transfer_climbs climbing alike climb
      rw [← size]
      refine .relative climbing' ?_ some (transfer_steps steps alike' step)
      rwa [← List.length_pos_iff, size, List.length_pos_iff]

end LeafrefPath

/-! ## Reading pieces without predicates -/

namespace Path

variable {names : List QualifiedName} {climbs pieces : List (List Char)}
  {path : String} {text rest : List Char}

theorem parseSteps_eq_ok_iff :
    parseSteps path text = .ok names ↔
      List.Forall₂ QualifiedName.IsBare names (Text.splitOn '/' text) := by
  unfold parseSteps
  generalize Text.splitOn '/' text = pieces
  induction pieces generalizing names with
  | nil =>
      rw [List.mapM_nil, pure_eq_ok_iff, List.forall₂_nil_right_iff, eq_comm]
  | cons piece pieces ih =>
      simp only [List.mapM_cons, bind_eq_ok_iff, pure_eq_ok_iff, ih]
      constructor
      · rintro ⟨name, read, others, each, rfl⟩
        refine .cons (QualifiedName.ofCharacters?_trim_iff.mp ?_) each
        split at read
        next found => rw [found, Except.ok.inj read]
        · simp at read
      · intro each
        cases each with
        | cons here each =>
            refine ⟨_, ?_, _, each, rfl⟩
            simp [QualifiedName.ofCharacters?_trim_iff.mpr here]

theorem parseSteps_of_pads {inner outer : List Char} (pads : Text.Pads inner outer) :
    parseSteps path outer = .ok names ↔ parseSteps path inner = .ok names := by
  have trimmed (text : List Char) : parseSteps path text = .ok names ↔
      List.Forall₂ (fun name step => QualifiedName.ofCharacters? step = some name)
        names ((Text.splitOn '/' text).map Text.trim) := by
    rw [parseSteps_eq_ok_iff, List.forall₂_map_right_iff]
    simp only [QualifiedName.ofCharacters?_trim_iff]
  rw [trimmed, trimmed, pads.map_trim_splitOn (by decide)]

theorem parseSteps_intercalate (some : names ≠ [])
    (steps : List.Forall₂ QualifiedName.IsBare names pieces) :
    parseSteps path (['/'].intercalate pieces) = .ok names := by
  have each := steps.flip.imp fun _ _ bare =>
    And.intro (QualifiedName.IsBare.not_mem bare (List.mem_cons_self)) bare
  have free := ((List.forall₂_and_left ..).mp each).1
  rw [parseSteps_eq_ok_iff,
    Text.splitOn_intercalate (LeafrefPath.ne_nil_of_steps some steps) free]
  exact steps

theorem climb_eq (text : List Char)
    (other : ∀ rest, text ≠ '.' :: '.' :: '/' :: rest) : climb text = (0, text) := by
  unfold climb
  split
  next rest => exact absurd rfl (other rest)
  · rfl

theorem climb_of_parseSteps (read : parseSteps path text = .ok names) :
    climb text = (0, text) := by
  refine climb_eq text fun rest same => ?_
  rw [parseSteps_eq_ok_iff, same] at read
  simp only [Text.splitOn, Char.reduceEq, if_false, if_true] at read
  cases read with
  | cons bare _ =>
      have trimmed := bare.2.trim_eq_inner bare.1.isTrim
      have points : Text.trim ['.', '.'] = ['.', '.'] := by decide
      refine bare.1.not_mem ?_
      simp [← trimmed, points]

/-- Climbing counts the pieces that climb. -/
theorem climb_append (climbing : ∀ piece ∈ climbs, IsClimb piece) (text : List Char) :
    climb (Text.trimStart (climbs.flatMap (· ++ ['/']) ++ text)) =
      ((climb (Text.trimStart text)).1 + climbs.length,
        (climb (Text.trimStart text)).2) := by
  induction climbs with
  | nil => rfl
  | cons first climbs ih =>
      obtain ⟨⟨before, blank, rfl⟩, there⟩ := List.forall_mem_cons.mp climbing
      have point : Text.isBlank '.' = false := by decide
      have start : Text.trimStart (((before ++ ['.', '.']) :: climbs).flatMap
          (· ++ ['/']) ++ text) =
          '.' :: '.' :: '/' :: (climbs.flatMap (· ++ ['/']) ++ text) := by
        simp only [List.flatMap_cons, List.append_assoc]
        rw [Text.trimStart_append blank]
        simp [Text.trimStart, point]
      rw [start, climb, ih there]
      simp [Nat.add_assoc]

theorem of_climb {up : Nat} (climbed : climb (Text.trimStart text) = (up, rest)) :
    ∃ (climbs : List (List Char)) (blanks : List Char), climbs.length = up ∧
      (∀ piece ∈ climbs, IsClimb piece) ∧ Text.AreBlank blanks ∧
      text = climbs.flatMap (· ++ ['/']) ++ (blanks ++ rest) := by
  induction size : text.length using Nat.strongRecOn generalizing text up with
  | _ size ih =>
      subst size
      have front : Text.AreBlank (text.takeWhile Text.isBlank) :=
        fun c => List.mem_takeWhile_imp
      have whole : text.takeWhile Text.isBlank ++ Text.trimStart text = text :=
        List.takeWhile_append_dropWhile
      unfold climb at climbed
      split at climbed
      next below start =>
        obtain ⟨rfl, rfl⟩ := Prod.mk.inj climbed
        rw [start] at whole
        have shorter : below.length < text.length := by
          rw [← whole]
          simp
          omega
        obtain ⟨climbs, blanks, size, climbing, blank, same⟩ :=
          ih below.length shorter rfl rfl
        refine ⟨(text.takeWhile Text.isBlank ++ ['.', '.']) :: climbs, blanks,
          by simp [size], ?_, blank, ?_⟩
        · exact List.forall_mem_cons.mpr ⟨⟨_, front, rfl⟩, climbing⟩
        · rw [List.flatMap_cons, List.append_assoc _ (climbs.flatMap _), ← same]
          simpa using whole.symm
      · obtain ⟨rfl, rfl⟩ := Prod.mk.inj climbed
        exact ⟨[], _, rfl, by simp, front, by simpa using whole.symm⟩

end Path

/-! ## Reading paths -/

namespace LeafrefPath

variable {path : LeafrefPath} {text : String} {left : List Char}
  {pieces lefts : List (List Char)} {names : List QualifiedName}

/-- A path without predicates as it is read. -/
def ofStripped (path : String) (text : List Char) : Except PathError LeafrefPath :=
  match Text.trim text with
  | '/' :: rest => return ⟨true, 0, ← Path.parseSteps path rest⟩
  | text => do
      let (up, rest) := Path.climb text
      if up = 0 then
        throw (.noStart path)
      return ⟨false, up, ← Path.parseSteps path rest⟩

theorem parse_eq (plain : Path.occurs "deref(".toList text.toList = false) :
    parse text = Path.stripPredicates text 0 text.toList >>= ofStripped text := by
  simp only [parse, plain]
  rfl

theorem not_areBlank_of_steps (some : names ≠ [])
    (steps : List.Forall₂ QualifiedName.IsBare names pieces) :
    ¬ Text.AreBlank (['/'].intercalate pieces) := by
  intro blank
  cases steps with
  | nil => exact some rfl
  | @cons _ piece _ pieces bare _ =>
      refine bare.not_areBlank fun c member => blank c ?_
      cases pieces <;> simp [List.intercalate_cons_cons, member]

theorem ofStripped_of_isLaidOut (laid : path.IsLaidOut QualifiedName.IsBare pieces) :
    ofStripped text (['/'].intercalate pieces) = .ok path := by
  have slash : Text.isBlank '/' = false := by decide
  cases laid with
  | @absolute names before pieces blank some steps =>
      have front : ¬ Text.AreBlank (before ++ ['/']) := fun areBlank => by
        simpa [slash] using areBlank '/' (by simp)
      have trimmed : Text.trim (['/'].intercalate (before :: pieces)) =
          '/' :: Text.trimEnd (['/'].intercalate pieces) := by
        rw [List.intercalate_cons_of_ne_nil (ne_nil_of_steps some steps),
          Text.trim_append front (not_areBlank_of_steps some steps),
          Text.trimStart_append blank]
        simp [Text.trimStart, slash]
      have read : Path.parseSteps text (['/'].intercalate pieces) = .ok names :=
        Path.parseSteps_intercalate some steps
      rw [Path.parseSteps_of_pads (Text.pads_trimEnd _)] at read
      simp only [ofStripped, trimmed, read]
      rfl
  | @relative names climbs pieces climbing upward some steps =>
      have front : ¬ Text.AreBlank (climbs.flatMap (· ++ ['/'])) := fun areBlank => by
        obtain ⟨first, climbs, rfl⟩ := List.exists_cons_of_ne_nil upward
        simpa [slash] using areBlank '/' (by simp)
      have read : Path.parseSteps text (['/'].intercalate pieces) = .ok names :=
        Path.parseSteps_intercalate some steps
      rw [Path.parseSteps_of_pads (Text.pads_trimEnd _),
        Path.parseSteps_of_pads (Text.pads_trimStart _)] at read
      have climbed := Path.climb_append climbing
        (Text.trimEnd (['/'].intercalate pieces))
      rw [Path.climb_of_parseSteps read, Text.trimStart_append_of_not_areBlank front,
        ← Text.trim_append front (not_areBlank_of_steps some steps),
        ← Text.intercalate_append _ (ne_nil_of_steps some steps), Nat.zero_add]
        at climbed
      unfold ofStripped
      split
      next rest trimmed =>
        rw [trimmed, Path.climb_eq _ (by simp)] at climbed
        obtain ⟨none, -⟩ := Prod.mk.inj climbed
        exact absurd (List.length_eq_zero_iff.mp none.symm) upward
      · simp only [climbed, List.length_eq_zero_iff, upward, if_false, read]
        rfl

theorem isLaidOut_of_ofStripped (read : ofStripped text left = .ok path) :
    path.IsLaidOut QualifiedName.IsBare (Text.splitOn '/' left) := by
  obtain ⟨before, after, front, back, whole⟩ := Text.pads_trim left
  have blanks {blanks : List Char} (blank : Text.AreBlank blanks) : '/' ∉ blanks :=
    fun member => absurd (blank _ member) (by decide)
  have others {names : List QualifiedName} {text : List Char}
      (steps : List.Forall₂ QualifiedName.IsBare names (Text.splitOn '/' text)) :
      names ≠ [] := by
    rintro rfl
    exact Text.splitOn_ne_nil _ _ (List.forall₂_nil_left_iff.mp steps)
  unfold ofStripped at read
  split at read
  next rest trimmed =>
    simp only [bind_eq_ok_iff, pure_eq_ok_iff] at read
    obtain ⟨names, read, rfl⟩ := read
    rw [← Path.parseSteps_of_pads ((Text.pads_self rest).add_after back),
      Path.parseSteps_eq_ok_iff] at read
    have cut := Text.splitOn_append (List.forall_mem_singleton.mpr (blanks front))
      (rest ++ after)
    have same : left = [before].flatMap (· ++ ['/']) ++ (rest ++ after) := by
      rw [whole, trimmed]
      simp
    rw [same, cut]
    exact .absolute front (others read) read
  next =>
    obtain ⟨⟨up, rest⟩, climbed⟩ : ∃ climbed, Path.climb (Text.trim left) = climbed :=
      ⟨_, rfl⟩
    simp only [climbed] at read
    split at read
    · simp at read
    next upward =>
      simp only [bind_eq_ok_iff, pure_eq_ok_iff] at read
      obtain ⟨names, read, rfl⟩ := read
      rw [← Text.trimStart_trim, ← Text.trimStart_append front] at climbed
      obtain ⟨climbs, blank, rfl, climbing, isBlank, same⟩ := Path.of_climb climbed
      rw [← Path.parseSteps_of_pads
          (((Text.pads_self rest).add_before isBlank).add_after back),
        Path.parseSteps_eq_ok_iff] at read
      have free : ∀ piece ∈ climbs, '/' ∉ piece := by
        intro piece member
        obtain ⟨before, front, rfl⟩ := climbing piece member
        simpa using blanks front
      have cut := Text.splitOn_append free (blank ++ rest ++ after)
      rw [whole, same, List.append_assoc, cut]
      exact .relative climbing (fun none => upward (by simp [none])) (others read) read

/-- What is read of a text is what its predicates leave of it. -/
theorem parse_eq_ok_iff (plain : Path.occurs "deref(".toList text.toList = false) :
    parse text = .ok path ↔
      ∃ left, Path.Drops text.toList left ∧
        path.IsLaidOut QualifiedName.IsBare (Text.splitOn '/' left) := by
  rw [parse_eq plain, bind_eq_ok_iff]
  simp only [Path.stripPredicates_eq_ok_iff]
  constructor
  · rintro ⟨left, drops, read⟩
    exact ⟨left, drops, isLaidOut_of_ofStripped read⟩
  · rintro ⟨left, drops, laid⟩
    have read : ofStripped text (['/'].intercalate (Text.splitOn '/' left)) =
        .ok path := ofStripped_of_isLaidOut laid
    rw [Text.intercalate_splitOn] at read
    exact ⟨left, drops, read⟩

end LeafrefPath

/-! ## Where predicates stand -/

namespace Path

variable {name : QualifiedName} {text piece left : List Char}
  {pieces : List (List Char)}

/-- A piece between two slashes whose predicates, if it has any, stand behind all the
rest of it, which is neither blank nor `..`. -/
def IsPlaced (piece : List Char) : Prop :=
  ∃ bare predicates, piece = bare ++ predicates ∧
    (∀ c ∈ ['/', '[', ']'], c ∉ bare) ∧ ArePredicates predicates ∧
    (predicates = [] ∨ Text.trim bare ∉ [[], ['.', '.']])

/-- Between any two slashes, those in predicates apart, there are only predicates and
blanks behind the first predicate, and a name may be in front of it. -/
def PredicatesFollowNames (text : List Char) : Prop :=
  ∃ pieces, text = ['/'].intercalate pieces ∧ ∀ piece ∈ pieces, IsPlaced piece

/-- A piece without predicates is in place. -/
theorem isPlaced_of_free (free : ∀ c ∈ ['/', '[', ']'], c ∉ piece) : IsPlaced piece :=
  ⟨piece, [], by simp, free, .nil, .inl rfl⟩

theorem free_of_areBlank (blank : Text.AreBlank piece) :
    ∀ c ∈ ['/', '[', ']'], c ∉ piece := by
  intro c mark member
  have solid := blank c member
  revert solid
  fin_cases mark <;> decide

theorem IsClimb.free (climb : IsClimb piece) : ∀ c ∈ ['/', '[', ']'], c ∉ piece := by
  obtain ⟨before, blank, rfl⟩ := climb
  intro c mark member
  obtain member | point := List.mem_append.mp member
  · exact free_of_areBlank blank c mark member
  · revert point
    fin_cases mark <;> decide

/-- What is left of a piece in place. -/
theorem IsPlaced.split (placed : IsPlaced piece) :
    ∃ bare predicates blanks, piece = bare ++ predicates ∧
      (∀ c ∈ ['/', '[', ']'], c ∉ bare) ∧ ArePredicates predicates ∧
      Text.AreBlank blanks ∧ Drops piece (bare ++ blanks) ∧
      (piece = bare ++ blanks ∨ Text.trim bare ∉ [[], ['.', '.']]) := by
  obtain ⟨bare, predicates, rfl, free, are, placed⟩ := placed
  have kept := drops_self (free '[' (by simp)) (free ']' (by simp))
  obtain rfl | behind := placed
  · exact ⟨bare, [], [], rfl, free, .nil, Text.areBlank_nil, by simpa using kept,
      .inl rfl⟩
  · obtain ⟨blanks, blank, drops⟩ := are.drops
    exact ⟨bare, predicates, blanks, rfl, free, are, blank, kept.append drops,
      .inr behind⟩

theorem IsPlaced.exists_drops (placed : IsPlaced piece) :
    ∃ left, Drops piece left ∧ '/' ∉ left := by
  obtain ⟨bare, predicates, blanks, -, free, -, blank, drops, -⟩ := placed.split
  refine ⟨_, drops, fun member => ?_⟩
  obtain member | member := List.mem_append.mp member
  · exact free '/' (by simp) member
  · exact free_of_areBlank blank '/' (by simp) member

/-- What is trimmed to no name was left as it was. -/
theorem IsPlaced.eq_of_trim (placed : IsPlaced piece) (drops : Drops piece left)
    (trimmed : Text.trim left ∈ [[], ['.', '.']]) : piece = left := by
  obtain ⟨bare, predicates, blanks, -, -, -, blank, drops', kept⟩ := placed.split
  obtain rfl := drops.eq drops'
  obtain same | behind := kept
  · exact same
  · rw [((Text.pads_self bare).add_after blank).trim_eq] at trimmed
    exact absurd trimmed behind

theorem IsPlaced.of_areBlank (placed : IsPlaced piece) (drops : Drops piece left)
    (blank : Text.AreBlank left) : Text.AreBlank piece := by
  have trimmed : Text.trim left = [] := by
    simp [Text.trim, Text.trimStart_of_areBlank blank, Text.trimEnd]
  rwa [placed.eq_of_trim drops (by simp [trimmed])]

theorem IsPlaced.of_isClimb (placed : IsPlaced piece) (drops : Drops piece left)
    (climb : IsClimb left) : IsClimb piece := by
  have trimmed : Text.trim left = ['.', '.'] := by
    obtain ⟨before, blank, rfl⟩ := climb
    have points : Text.trim ['.', '.'] = ['.', '.'] := by decide
    rw [((Text.pads_self _).add_before blank).trim_eq, points]
  rwa [placed.eq_of_trim drops (by simp [trimmed])]

theorem IsPlaced.of_isBare (placed : IsPlaced piece) (drops : Drops piece left)
    (bare : name.IsBare left) : name.IsStep piece := by
  obtain ⟨front, predicates, blanks, rfl, -, are, blank, drops', -⟩ := placed.split
  obtain rfl := drops.eq drops'
  obtain ⟨valid, pads⟩ := bare
  have trimmed : Text.trim front = name.text.toList := by
    rw [← pads.trim_eq_inner valid.isTrim,
      ((Text.pads_self front).add_after blank).trim_eq]
  obtain ⟨before, after, blank, blank', whole⟩ := Text.pads_trim front
  rw [trimmed] at whole
  exact ⟨valid, before, after ++ predicates, blank, are.of_areBlank_append blank',
    by simp [whole]⟩

end Path

theorem QualifiedName.IsStep.isPlaced {name : QualifiedName} {piece : List Char}
    (step : name.IsStep piece) : Path.IsPlaced piece := by
  obtain ⟨valid, before, predicates, blank, are, rfl⟩ := step
  have pads := (Text.pads_self name.text.toList).add_before blank
  have bare : name.IsBare (before ++ name.text.toList) := ⟨valid, pads⟩
  refine ⟨_, predicates, rfl, fun c mark => bare.not_mem mark, are, .inr ?_⟩
  rw [pads.trim_eq_inner valid.isTrim]
  exact valid.not_mem

theorem QualifiedName.IsStep.isBare {name : QualifiedName} {piece left : List Char}
    (step : name.IsStep piece) (drops : Path.Drops piece left) : name.IsBare left := by
  obtain ⟨valid, before, predicates, blank, are, rfl⟩ := step
  obtain ⟨blanks, blank', dropped⟩ := are.drops
  have pads := (Text.pads_self name.text.toList).add_before blank
  have bare : name.IsBare (before ++ name.text.toList) := ⟨valid, pads⟩
  have kept := Path.drops_self (bare.not_mem (by simp)) (bare.not_mem (by simp))
  rw [drops.eq (kept.append dropped)]
  exact ⟨valid, pads.add_after blank'⟩

namespace LeafrefPath

variable {path : LeafrefPath} {text : String} {pieces lefts : List (List Char)}

theorem IsLaidOut.isPlaced (laid : path.IsLaidOut QualifiedName.IsStep pieces) :
    ∀ piece ∈ pieces, Path.IsPlaced piece := by
  have each {names : List QualifiedName} {pieces : List (List Char)}
      (steps : List.Forall₂ QualifiedName.IsStep names pieces) :
      ∀ piece ∈ pieces, Path.IsPlaced piece := by
    have placed := steps.flip.imp fun _ _ step => And.intro
      (QualifiedName.IsStep.isPlaced step) step
    exact ((List.forall₂_and_left ..).mp placed).1
  cases laid with
  | absolute blank _ steps =>
      exact List.forall_mem_cons.mpr
        ⟨Path.isPlaced_of_free (Path.free_of_areBlank blank), each steps⟩
  | relative climbing _ _ steps =>
      exact List.forall_mem_append.mpr
        ⟨fun piece member => Path.isPlaced_of_free (climbing piece member).free,
          each steps⟩

theorem exists_lefts (placed : ∀ piece ∈ pieces, Path.IsPlaced piece) :
    ∃ lefts, List.Forall₂ Path.Drops pieces lefts ∧ ∀ left ∈ lefts, '/' ∉ left := by
  induction pieces with
  | nil => exact ⟨[], .nil, by simp⟩
  | cons piece pieces ih =>
      obtain ⟨here, there⟩ := List.forall_mem_cons.mp placed
      obtain ⟨left, drops, free⟩ := here.exists_drops
      obtain ⟨lefts, each, others⟩ := ih there
      exact ⟨left :: lefts, .cons drops each, List.forall_mem_cons.mpr ⟨free, others⟩⟩

theorem IsSpelled.parse (spelled : path.IsSpelled text.toList)
    (plain : Path.occurs "deref(".toList text.toList = false) :
    LeafrefPath.parse text = .ok path := by
  obtain ⟨pieces, laid, whole⟩ := spelled
  obtain ⟨lefts, drops, free⟩ := exists_lefts laid.isPlaced
  have laid' : path.IsLaidOut QualifiedName.IsBare lefts := by
    refine laid.transfer drops ?_ ?_ fun _ _ _ drops step => step.isBare drops
    · intro piece left drops blank
      have free := Path.free_of_areBlank blank
      rwa [drops.eq (Path.drops_self (free '[' (by simp)) (free ']' (by simp)))]
    · intro piece left drops climb
      have free := climb.free
      rwa [drops.eq (Path.drops_self (free '[' (by simp)) (free ']' (by simp)))]
  refine (parse_eq_ok_iff plain).mpr ⟨_, whole ▸ Path.Drops.intercalate drops, ?_⟩
  rwa [Text.splitOn_intercalate laid'.ne_nil free]

theorem isSpelled_of_parse (plain : Path.occurs "deref(".toList text.toList = false)
    (read : LeafrefPath.parse text = .ok path)
    (follow : Path.PredicatesFollowNames text.toList) :
    path.IsSpelled text.toList := by
  obtain ⟨left, dropped, laid⟩ := (parse_eq_ok_iff plain).mp read
  obtain ⟨pieces, some, whole, placed⟩ : ∃ pieces, pieces ≠ [] ∧
      text.toList = ['/'].intercalate pieces ∧
      ∀ piece ∈ pieces, Path.IsPlaced piece := by
    obtain ⟨pieces, whole, placed⟩ := follow
    cases pieces with
    | nil => exact ⟨[[]], by simp, whole, by simp [Path.isPlaced_of_free]⟩
    | cons piece pieces => exact ⟨_, by simp, whole, placed⟩
  obtain ⟨lefts, drops, free⟩ := exists_lefts placed
  have some' : lefts ≠ [] := by
    rintro rfl
    exact some (List.forall₂_nil_right_iff.mp drops)
  have same := dropped.eq (whole ▸ Path.Drops.intercalate drops)
  rw [same, Text.splitOn_intercalate some' free] at laid
  have alike := ((List.forall₂_and_left ..).mpr ⟨placed, drops⟩).flip
  refine ⟨pieces, laid.transfer alike ?_ ?_ ?_, whole⟩
  · exact fun left piece alike => alike.1.of_areBlank alike.2
  · exact fun left piece alike => alike.1.of_isClimb alike.2
  · exact fun name left piece alike => alike.1.of_isBare alike.2

/-- A text without `deref(` is read as a path exactly if the path is written like this,
as long as predicates stand behind names only. -/
theorem spelled_paths_are_read
    (plain : Path.occurs "deref(".toList text.toList = false) :
    path.IsSpelled text.toList ↔
      LeafrefPath.parse text = .ok path ∧
        Path.PredicatesFollowNames text.toList := by
  constructor
  · intro spelled
    obtain ⟨pieces, laid, whole⟩ := spelled
    exact ⟨IsSpelled.parse ⟨pieces, laid, whole⟩ plain, pieces, whole, laid.isPlaced⟩
  · rintro ⟨read, follow⟩
    exact isSpelled_of_parse plain read follow

theorem spelled_paths_are_read_nested :
    let text := "../ ../a[b[1]/c] /p:d"
    let path : LeafrefPath := ⟨false, 2, [⟨none, "a"⟩, ⟨some "p", "d"⟩]⟩
    Path.occurs "deref(".toList text.toList = false ∧ path.IsSpelled text.toList ∧
      LeafrefPath.parse text = .ok path ∧ Path.PredicatesFollowNames text.toList := by
  intro text path
  have plain : Path.occurs "deref(".toList text.toList = false := by decide
  have space : Text.isBlank ' ' = true := by decide
  have climbing : ∀ piece ∈ [['.', '.'], [' ', '.', '.']], Path.IsClimb piece := by
    have first : Path.IsClimb ['.', '.'] := ⟨[], Text.areBlank_nil, rfl⟩
    have second : Path.IsClimb [' ', '.', '.'] :=
      ⟨[' '], List.forall_mem_singleton.mpr space, rfl⟩
    simp [first, second]
  have inside : Path.IsBalanced ('b' :: '[' :: (['1'] ++ ']' :: ['/', 'c'])) := by
    refine .plain (by decide) (by decide) (.nest ?_ ?_) <;>
      exact Path.isBalanced_of_free (by decide) (by decide)
  have step : QualifiedName.IsStep ⟨none, "a"⟩ "a[b[1]/c] ".toList :=
    ⟨⟨by simp, by decide⟩, [], _, Text.areBlank_nil,
      .predicate inside (.blank space .nil), by decide⟩
  have step' : QualifiedName.IsStep ⟨some "p", "d"⟩ "p:d".toList :=
    ⟨⟨by simp [isIdentifier]; decide, by decide⟩, [], [], Text.areBlank_nil, .nil,
      by decide⟩
  have spelled : path.IsSpelled text.toList :=
    ⟨_, .relative climbing (by simp) (by simp) (.cons step (.cons step' .nil)),
      by decide⟩
  exact ⟨plain, spelled, (spelled_paths_are_read plain).mp spelled⟩

/-- What stands around a predicate becomes one name. -/
theorem parse_joins_around_predicate :
    LeafrefPath.parse "/a[x]b" = .ok ⟨true, 0, [⟨none, "ab"⟩]⟩ ∧
      ∀ path : LeafrefPath, ¬ path.IsSpelled "/a[x]b".toList := by
  have read : LeafrefPath.parse "/a[x]b" = .ok ⟨true, 0, [⟨none, "ab"⟩]⟩ := by
    decide +kernel
  refine ⟨read, fun path spelled => ?_⟩
  obtain rfl := Except.ok.inj (read.symm.trans (spelled.parse (by decide)))
  obtain ⟨pieces, laid, whole⟩ := spelled
  cases laid with
  | @absolute _ front _ _ _ steps =>
      cases steps with
      | cons step none =>
          cases none
          obtain ⟨-, before, predicates, -, -, rfl⟩ := step
          have found : "ab".toList <:+: "/a[x]b".toList :=
            ⟨front ++ '/' :: before, predicates, by simp [whole, QualifiedName.text]⟩
          revert found
          decide

end LeafrefPath

end YangSchema
