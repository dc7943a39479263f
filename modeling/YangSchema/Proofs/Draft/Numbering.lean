import Mathlib.Data.List.Induction
import YangSchema.Proofs.Draft.Naming

/-!
# The numbers of members

The members of an enumeration or of a set of bits are numbered one after the other
when their statements end.  A declared number must fit the type and exceed all
earlier ones, any other member gets the number behind the last one.  So the numbers
increase strictly, the greatest one is always the last, and reading goes through
exactly if every declared number keeps to that and no member needs a number behind
the greatest of the type.
-/

namespace YangSchema

namespace Literal

/-- A text is the numeral of an integer: its digits without a leading zero, behind
a minus sign if it is negative. -/
inductive Denotes : List Char → Int → Prop
  | natural {digits : List Char} (unsigned : isUnsigned digits = true) :
      Denotes digits (digitsValue digits)
  | negative {digits : List Char} (unsigned : isUnsigned digits = true)
      (other : digits ≠ ['0']) : Denotes ('-' :: digits) (-(digitsValue digits))

theorem le_foldl_digits (digits : List Char) (value : Nat) :
    value ≤ digits.foldl (fun value c => 10 * value + (c.toNat - '0'.toNat))
      value := by
  induction digits generalizing value with
  | nil => exact Nat.le_refl value
  | cons digit rest ih =>
      have first : value ≤ 10 * value + (digit.toNat - '0'.toNat) := by omega
      exact Nat.le_trans first (ih _)

/-- Digits other than a single zero are those of a positive number. -/
theorem digitsValue_pos {digits : List Char} (unsigned : isUnsigned digits = true)
    (other : digits ≠ ['0']) : 0 < digitsValue digits := by
  cases digits with
  | nil => simp [isUnsigned] at unsigned
  | cons first rest =>
      simp only [isUnsigned, List.all_cons, Bool.and_eq_true, Bool.or_eq_true,
        bne_iff_ne, List.isEmpty_iff] at unsigned
      obtain ⟨⟨isDigit, -⟩, leads⟩ := unsigned
      have nonzero : first ≠ '0' := by
        rintro rfl
        exact other (by simpa using leads)
      have positive : 0 < first.toNat - '0'.toNat := by
        simp only [Char.isDigit, Bool.and_eq_true, decide_eq_true_eq] at isDigit
        have apart : first.toNat ≠ '0'.toNat := fun same =>
          nonzero (Char.toNat_inj.mp same)
        have least : '0'.toNat ≤ first.toNat := isDigit.1
        omega
      exact Nat.lt_of_lt_of_le (by simpa using positive) (le_foldl_digits rest _)

theorem isUnsigned_minus (digits : List Char) :
    isUnsigned ('-' :: digits) = false := by
  simp [isUnsigned, Char.isDigit]

/-- A numeral is read if it has at most 128 bits. -/
theorem integer?_of_denotes {text : List Char} {number : Int}
    (denotes : Denotes text number) :
    integer? text =
      if -(Nat.pow 2 127 : Int) ≤ number ∧ number < (Nat.pow 2 127 : Int) then
        some number
      else none := by
  cases denotes with
  | @natural digits unsigned =>
      unfold integer?
      split
      next rest => simp [isUnsigned_minus] at unsigned
      · simp only [unsigned, if_true]
        congr 1
        rw [eq_iff_iff]
        omega
  | @negative digits unsigned other =>
      have positive := digitsValue_pos unsigned other
      simp only [integer?, unsigned, bne_iff_ne.mpr other, Bool.and_true, if_true]
      congr 1
      rw [eq_iff_iff]
      omega

/-- A numeral is read as a natural number if it is one of at most 64 bits. -/
theorem nonNegative?_of_denotes {text : List Char} {number : Int}
    (denotes : Denotes text number) :
    nonNegative? text =
      if 0 ≤ number ∧ number < (Nat.pow 2 64 : Int) then some number.toNat
      else none := by
  cases denotes with
  | @natural digits unsigned =>
      simp only [nonNegative?, unsigned, if_true, Int.toNat_natCast]
      congr 1
      rw [eq_iff_iff]
      omega
  | @negative digits unsigned other =>
      have positive := digitsValue_pos unsigned other
      rw [nonNegative?, isUnsigned_minus, if_neg (by simp), if_neg (by omega)]

end Literal

namespace Numbering

theorem admits_iff {numbering : Numbering} {number : Int} :
    numbering.admits number = true ↔
      numbering.least ≤ number ∧ number ≤ numbering.greatest := by
  rw [admits, Bool.and_eq_true, decide_eq_true_eq, decide_eq_true_eq]

theorem admits_values {number : Int} :
    values.admits number = true ↔ -2147483648 ≤ number ∧ number ≤ 2147483647 := by
  rw [admits_iff]
  have power : ((Nat.pow 2 31 : Nat) : Int) = 2147483648 := rfl
  simp only [values, BuiltinType.signedLimits]
  omega

theorem admits_positions {number : Int} :
    positions.admits number = true ↔ 0 ≤ number ∧ number ≤ 4294967295 := by
  rw [admits_iff]
  have power : ((Nat.pow 2 32 : Nat) : Int) = 4294967296 := rfl
  simp only [positions, BuiltinType.unsignedLimits]
  omega

variable {numbering : Numbering}

/-- The number behind another one, or the first one. -/
def successor (previous : Option Int) : Int :=
  previous.elim 0 (· + 1)

/-- The numbers of members behind `previous`, some of which declare theirs. -/
def numbersFrom : Option Int → List (Option Int) → List Int
  | _, [] => []
  | previous, declared :: rest =>
      let number := declared.getD (successor previous)
      number :: numbersFrom (some number) rest

/-- A member behind `previous` can have the number that it declares, or get the
next one. -/
structure Admits (numbering : Numbering) (previous declared : Option Int) :
    Prop where
  fits : ∀ number ∈ declared, numbering.admits number = true
  exceeds : ∀ number ∈ declared, ∀ before ∈ previous, before < number
  room : declared = none → ∀ before ∈ previous, before < numbering.greatest

/-- Each of some members behind `previous` can have its number. -/
def AdmitsFrom (numbering : Numbering) : Option Int → List (Option Int) → Prop
  | _, [] => True
  | previous, declared :: rest =>
      numbering.Admits previous declared ∧
        numbering.AdmitsFrom (some (declared.getD (successor previous))) rest

instance (previous declared : Option Int) :
    Decidable (numbering.Admits previous declared) :=
  decidable_of_iff
    ((∀ number ∈ declared.toList, numbering.admits number = true) ∧
      (∀ number ∈ declared.toList, ∀ before ∈ previous.toList, before < number) ∧
      (declared = none →
        ∀ before ∈ previous.toList, before < numbering.greatest)) <| by
    simp only [Option.mem_toList]
    exact ⟨fun ⟨fits, exceeds, room⟩ => ⟨fits, exceeds, room⟩,
      fun ⟨fits, exceeds, room⟩ => ⟨fits, exceeds, room⟩⟩

instance decidableAdmitsFrom :
    ∀ (previous : Option Int) (declared : List (Option Int)),
      Decidable (numbering.AdmitsFrom previous declared)
  | _, [] => .isTrue trivial
  | previous, declared :: rest =>
      have := decidableAdmitsFrom (some (declared.getD (successor previous))) rest
      inferInstanceAs (Decidable (_ ∧ _))

/-- Members can have the numbers that they declare, and the others the next ones:
each number that is declared is within the limits of the type and exceeds those in
front of it, and the greatest number of the type is followed by no member without
one. -/
structure Accepts (least greatest : Int) (declared : List (Option Int)) :
    Prop where
  explicit : ∀ front number rest, declared = front ++ some number :: rest →
    (least ≤ number ∧ number ≤ greatest) ∧
      ∀ before ∈ numbersFrom none front, before < number
  implicit : ∀ front rest, declared = front ++ none :: rest →
    (numbersFrom none front).getLast? ≠ some greatest

variable {members : List NumberedMember}

theorem maximum?_eq_getLast?
    (increasing : (members.map (·.number)).Pairwise (· < ·)) :
    maximum? members = (members.map (·.number)).getLast? := by
  rw [maximum?]
  generalize members.map (·.number) = numbers at increasing
  cases last : numbers.getLast? with
  | none => simp [List.getLast?_eq_none_iff.mp last]
  | some number =>
      obtain ⟨before, rfl⟩ := List.getLast?_eq_some_iff.mp last
      have below := (List.pairwise_append.mp increasing).2.2
      refine List.max?_eq_some_iff.mpr ⟨by simp, fun other listed => ?_⟩
      obtain early | rfl := by simpa using listed
      · exact Int.le_of_lt (below other early number List.mem_cons_self)
      · exact Int.le_refl _

/-- The number of a member behind others whose numbers increase. -/
theorem number_eq_ok_iff {member : NumberedMember} {declared : Option Int}
    {result : Int} (increasing : (members.map (·.number)).Pairwise (· < ·))
    (explicit : member.explicit = declared.isSome)
    (own : member.number = declared.getD 0) :
    let previous := (members.map (·.number)).getLast?
    numbering.number members member = .ok result ↔
      (∀ number ∈ declared, ∀ before ∈ previous, before < number) ∧
        (declared = none → ∀ before ∈ previous, before < numbering.greatest) ∧
        declared.getD (successor previous) = result := by
  intro previous
  have isMaximum : maximum? members = previous := maximum?_eq_getLast? increasing
  unfold number
  rw [explicit, isMaximum, own]
  cases last : previous with
  | none => cases declared <;> simp [successor]
  | some before =>
      cases declared with
      | none =>
          simp only [Option.isSome_none]
          split
          next room => simp [room, successor]
          next full => simp [full]
      | some declared =>
          have least (other : NumberedMember) (listed : other ∈ members) :
              other.number ≤ before :=
            (List.max?_eq_some_iff.mp (isMaximum.trans last)).2 _
              (List.mem_map_of_mem listed)
          simp only [Option.isSome_some, Option.getD_some]
          split
          next other found =>
            have same : other.number = declared := by
              simpa using List.find?_some found
            have below := same ▸ least other (List.mem_of_find?_eq_some found)
            simp [Int.not_lt.mpr below]
          next =>
            split
            next below => simp [Int.not_lt.mpr below]
            next above => simp [Int.not_le.mp above]

/-- A member that can have its number stands behind the one before. -/
theorem Admits.follows {previous declared : Option Int}
    (admits : numbering.Admits previous declared) :
    ∀ before ∈ previous, before < declared.getD (successor previous) := by
  rintro before rfl
  cases declared with
  | none => exact Int.lt_succ before
  | some number => exact admits.exceeds number rfl before rfl

theorem pairwise_concat {numbers : List Int} {number : Int}
    (increasing : numbers.Pairwise (· < ·))
    (last : ∀ before ∈ numbers.getLast?, before < number) :
    (numbers ++ [number]).Pairwise (· < ·) := by
  refine List.pairwise_append.mpr ⟨increasing, List.pairwise_singleton .., ?_⟩
  refine fun other listed _ is => List.mem_singleton.mp is ▸ ?_
  obtain rfl | ⟨front, before, rfl⟩ := List.eq_nil_or_concat numbers
  · cases listed
  rw [List.concat_eq_append] at increasing last listed
  have below : before < number := last before (by simp)
  obtain early | rfl := by simpa using listed
  · exact Int.lt_trans ((List.pairwise_append.mp increasing).2.2 other early before
      List.mem_cons_self) below
  · exact below

theorem numbersFrom_append (previous : Option Int)
    (front rest : List (Option Int)) :
    numbersFrom previous (front ++ rest) = numbersFrom previous front ++
      numbersFrom ((numbersFrom previous front).getLast?.or previous) rest := by
  induction front generalizing previous with
  | nil => rfl
  | cons first front ih =>
      simp only [List.cons_append, numbersFrom, ih]
      rw [List.getLast?_cons]
      generalize first.getD (successor previous) = next
      cases (numbersFrom (some next) front).getLast? <;> rfl

theorem admitsFrom_append {previous : Option Int} {front rest : List (Option Int)} :
    numbering.AdmitsFrom previous (front ++ rest) ↔
      numbering.AdmitsFrom previous front ∧
        numbering.AdmitsFrom ((numbersFrom previous front).getLast?.or previous)
          rest := by
  induction front generalizing previous with
  | nil => simp [AdmitsFrom, numbersFrom]
  | cons first front ih =>
      simp only [List.cons_append, AdmitsFrom, ih, numbersFrom, and_assoc]
      rw [List.getLast?_cons]
      generalize first.getD (successor previous) = next
      cases (numbersFrom (some next) front).getLast? <;> rfl

theorem numbersFrom_concat (front : List (Option Int)) (last : Option Int) :
    numbersFrom none (front ++ [last]) = numbersFrom none front ++
      [last.getD (successor (numbersFrom none front).getLast?)] := by
  rw [numbersFrom_append, Option.or_none]
  rfl

theorem admitsFrom_concat {front : List (Option Int)} {last : Option Int} :
    numbering.AdmitsFrom none (front ++ [last]) ↔
      numbering.AdmitsFrom none front ∧
        numbering.Admits (numbersFrom none front).getLast? last := by
  rw [admitsFrom_append, Option.or_none]
  simp [AdmitsFrom]

variable {declared : List (Option Int)}

theorem AdmitsFrom.increasing (admits : numbering.AdmitsFrom none declared) :
    (numbersFrom none declared).Pairwise (· < ·) := by
  induction declared using List.reverseRecOn with
  | nil => exact .nil
  | append_singleton front last ih =>
      obtain ⟨admits, own⟩ := admitsFrom_concat.mp admits
      rw [numbersFrom_concat]
      exact pairwise_concat (ih admits) own.follows

theorem AdmitsFrom.le_greatest (starts : 0 ≤ numbering.greatest)
    (admits : numbering.AdmitsFrom none declared) :
    ∀ number ∈ numbersFrom none declared, number ≤ numbering.greatest := by
  induction declared using List.reverseRecOn with
  | nil => exact List.forall_mem_nil _
  | append_singleton front last ih =>
      obtain ⟨admits, own⟩ := admitsFrom_concat.mp admits
      rw [numbersFrom_concat]
      refine List.forall_mem_append.mpr ⟨ih admits,
        List.forall_mem_singleton.mpr ?_⟩
      cases last with
      | some number =>
          exact (admits_iff.mp (own.fits number rfl)).2
      | none =>
          cases before : (numbersFrom none front).getLast? with
          | none => exact starts
          | some before => exact own.room rfl _ before

/-- It is enough to compare each member with the one before it. -/
theorem admitsFrom_iff_accepts (starts : 0 ≤ numbering.greatest) :
    numbering.AdmitsFrom none declared ↔
      Accepts numbering.least numbering.greatest declared := by
  constructor
  · intro admits
    have upTo {front rest : List (Option Int)} {one : Option Int}
        (split : declared = front ++ one :: rest) :
        numbering.AdmitsFrom none front ∧
          numbering.Admits (numbersFrom none front).getLast? one := by
      rw [split, List.append_cons, admitsFrom_append] at admits
      exact admitsFrom_concat.mp admits.1
    constructor
    · intro front number rest split
      obtain ⟨admits, own⟩ := upTo split
      refine ⟨admits_iff.mp (own.fits number rfl), fun before listed => ?_⟩
      have increasing := pairwise_concat admits.increasing own.follows
      exact (List.pairwise_append.mp increasing).2.2 before listed number
        List.mem_cons_self
    · intro front rest split full
      obtain ⟨-, own⟩ := upTo split
      exact absurd (own.room rfl _ full) (Int.lt_irrefl _)
  · intro accepts
    induction declared using List.reverseRecOn with
    | nil => trivial
    | append_singleton front last ih =>
        have admits : numbering.AdmitsFrom none front := by
          refine ih
            ⟨fun before number rest split => ?_, fun before rest split => ?_⟩
          · exact accepts.explicit before number (rest ++ [last]) (by simp [split])
          · exact accepts.implicit before (rest ++ [last]) (by simp [split])
        refine admitsFrom_concat.mpr ⟨admits, ?_, ?_, ?_⟩
        · rintro number rfl
          exact admits_iff.mpr (accepts.explicit front number [] rfl).1
        · rintro number rfl before is
          exact (accepts.explicit front number [] rfl).2 before
            (List.mem_of_getLast? is)
        · rintro rfl before is
          have most := admits.le_greatest starts before (List.mem_of_getLast? is)
          refine Int.lt_iff_le_and_ne.mpr ⟨most, fun full => ?_⟩
          exact accepts.implicit front [] rfl (full ▸ is)

theorem getElem?_numbersFrom_zero (previous : Option Int) :
    (numbersFrom previous declared)[0]? =
      declared[0]?.map (·.getD (successor previous)) := by
  cases declared <;> rfl

theorem getElem?_numbersFrom_succ (previous : Option Int) (index : Nat) :
    (numbersFrom previous declared)[index + 1]? = declared[index + 1]?.map
      (·.getD (successor (numbersFrom previous declared)[index]?)) := by
  induction index generalizing previous declared with
  | zero =>
      cases declared with
      | nil => rfl
      | cons first rest => exact getElem?_numbersFrom_zero _
  | succ index ih =>
      cases declared with
      | nil => rfl
      | cons first rest => exact ih _

/-- Members that declare no numbers are counted. -/
theorem numbersFrom_of_bare (bare : ∀ one ∈ declared, one = none)
    (previous : Option Int) :
    numbersFrom previous declared = (List.range declared.length).map
      fun index : Nat => successor previous + (index : Int) := by
  induction declared generalizing previous with
  | nil => rfl
  | cons first rest ih =>
      obtain ⟨rfl, others⟩ := List.forall_mem_cons.mp bare
      rw [numbersFrom, ih others, List.length_cons, List.range_succ_eq_map,
        List.map_cons, List.map_map]
      simp [successor, Function.comp_def, Int.add_assoc, Int.add_comm 1]

/-- Members stand in the order in which they are declared, and their numbers
increase.  A number that is declared is kept, and any other one follows that of the
member before, or is zero. -/
structure AreNumbered (declared : List (String × Option Int))
    (members : List NumberedMember) : Prop where
  names : members.map (·.name) = declared.map (·.1)
  increasing : (members.map (·.number)).Pairwise (· < ·)
  explicit : ∀ (index : Nat) (name : String) (number : Int),
    declared[index]? = some (name, some number) →
      members[index]?.map (·.number) = some number
  first : ∀ name, declared[0]? = some (name, none) →
    members[0]?.map (·.number) = some 0
  next : ∀ (index : Nat) (name : String), declared[index + 1]? = some (name, none) →
    ∃ before, members[index]? = some before ∧
      members[index + 1]?.map (·.number) = some (before.number + 1)
  counted : (∀ one ∈ declared, one.2 = none) →
    members.map (·.number) = (List.range declared.length).map fun index : Nat =>
      (index : Int)

theorem areNumbered_of_numbersFrom {declared : List (String × Option Int)}
    (names : members.map (·.name) = declared.map (·.1))
    (numbers : members.map (·.number) = numbersFrom none (declared.map (·.2)))
    (increasing : (members.map (·.number)).Pairwise (· < ·)) :
    AreNumbered declared members := by
  have numberAt (index : Nat) : members[index]?.map (·.number) =
      (numbersFrom none (declared.map (·.2)))[index]? := by
    rw [← numbers, List.getElem?_map]
  refine ⟨names, increasing, ?_, ?_, ?_, ?_⟩
  · intro index name number listed
    rw [numberAt]
    cases index with
    | zero => simp [getElem?_numbersFrom_zero, listed]
    | succ index => simp [getElem?_numbersFrom_succ, listed]
  · intro name listed
    rw [numberAt]
    simp [getElem?_numbersFrom_zero, listed, successor]
  · intro index name listed
    have within : index < members.length := by
      have same := congrArg List.length names
      rw [List.length_map, List.length_map] at same
      have := (List.getElem?_eq_some_iff.mp listed).1
      omega
    refine ⟨members[index], List.getElem?_eq_getElem within, ?_⟩
    rw [numberAt, getElem?_numbersFrom_succ, ← numberAt,
      List.getElem?_eq_getElem within]
    simp [listed, successor]
  · intro bare
    rw [numbers, numbersFrom_of_bare (List.forall_mem_map.mpr bare),
      List.length_map]
    simp [successor]

end Numbering

end YangSchema
