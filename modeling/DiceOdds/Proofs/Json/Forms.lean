import DiceOdds.Json.Forms
import DiceOdds.Proofs.Distribution.Integral
import DiceOdds.Proofs.Expr.Height
import DiceOdds.Proofs.Json.Reading

/-!
# The JSON forms of expressions

The forms are objects whose field names are plain strings, so every name is read as it was written.
An integer of 64 bits is written without superfluous zeros and read back as itself. A leaf of an
expression is one object, and an operator wraps its operands into two more, so the height of an
expression decides how much room its form takes.

## Main definitions

* `Expr.nodeParts`: the fields of an operator node.

## Main results

* `Json.outcome?_integer`: integers of 64 bits.
* `Json.tagged?_object`, `Json.fields?_object`: the fields of an object.
* `Operator.ofJson?_toJson`, `Expr.ofJson?_toJson`: operators and expressions.
-/

namespace DiceOdds

namespace Json

/-! ### Integers -/

/-- Only the digits of zero start with a zero. -/
theorem eq_nil_of_toDigits_eq_cons {n : Nat} {cs : List Char}
    (h : Nat.toDigits 10 n = '0' :: cs) : cs = [] := by
  induction n using Nat.strongRecOn generalizing cs with
  | ind n ih =>
    rw [Nat.toDigits_eq_if (by decide)] at h
    split at h
    · exact (List.cons.inj h).2.symm
    · next hn =>
      have hne : Nat.toDigits 10 (n / 10) ≠ [] := Nat.toDigits_ne_nil
      obtain ⟨c, ds, hds⟩ := List.exists_cons_of_ne_nil hne
      rw [hds, List.cons_append] at h
      obtain ⟨rfl, -⟩ := List.cons.inj h
      rw [ih (n / 10) (by omega) hds] at hds
      have hzero : n / 10 = 0 := by
        rw [← Nat.ofDigitChars_ten_toDigits (n := n / 10), hds]
        rfl
      omega

namespace Numeral

theorem wellFormed_ofInt (n : Int) : (ofInt n).WellFormed where
  whole_ne_nil := Nat.toDigits_ne_nil
  whole_digits _ hc := Nat.isDigit_of_mem_toDigits (by decide) (by decide) hc
  leading_zero _ h := eq_nil_of_toDigits_eq_cons h
  fraction_digits := nofun
  power_ne_nil := nofun
  power_digits := nofun

theorem chars_ofInt (n : Int) :
    (ofInt n).chars =
      if n < 0 then '-' :: Nat.toDigits 10 n.natAbs else Nat.toDigits 10 n.natAbs := by
  simp [chars, unsignedChars, pointChars, powerChars, ofInt]

theorem integer?_ofInt (a : Outcome) : (ofInt a.toInt).integer? = some a.toInt := by
  have hlow := a.le_toInt
  have hhigh := a.toInt_lt
  have hvalue : numeral (ofInt a.toInt).whole = a.toInt.natAbs := Nat.ofDigitChars_ten_toDigits
  have hplain : (ofInt a.toInt).isPlain = true := rfl
  have hnegative : (ofInt a.toInt).negative = decide (a.toInt < 0) := rfl
  simp only [integer?, hvalue, hplain, hnegative, Bool.not_true, Bool.false_eq_true, if_false,
    decide_eq_true_eq]
  split
  · next hneg =>
    rw [if_pos (by omega)]
    exact congrArg some (by omega)
  · next hnonneg =>
    rw [if_pos (by rw [maxCount]; omega)]
    exact congrArg some (by omega)

end Numeral

theorem outcome?_integer (a : Outcome) : outcome? (integer a.toInt) = some a := by
  simp only [outcome?, integer, Numeral.integer?_ofInt, Option.bind_some, Outcome.ofInt?_toInt]

/-! ### Objects -/

theorem unescapeFrom?_of_plain {raw : List Char} (h : Plain raw) (before : List Char) :
    unescapeFrom? before raw = some (before.reverse ++ raw) := by
  induction raw generalizing before with
  | nil => rw [unescapeFrom?, List.append_nil]
  | cons c raw ih =>
    rw [Plain, List.forall_mem_cons] at h
    obtain ⟨⟨-, hescape, -⟩, hraw⟩ := h
    rw [unescapeFrom?, ih hraw, List.reverse_cons, List.append_assoc]
    · rfl
    · exact fun _ _ _ _ _ _ _ _ _ hc _ => hescape hc
    · exact fun _ _ _ _ _ hc _ => hescape hc
    · exact fun _ _ hc _ => hescape hc

theorem unescape?_of_plain {s : String} (h : Plain s.toList) : unescape? s.toList = some s := by
  rw [unescape?, unescapeFrom?_of_plain h]
  simp

theorem tagged?_object (name : String) (h : Plain name.toList) (v : Value) :
    tagged? (object [(name, v)]) = some (name, v) := by
  simp only [object, List.map_cons, List.map_nil, tagged?, unescape?_of_plain h, Option.map_some]

theorem fields?_object (names : List String) {fields : List (String × Value)}
    (h : ∀ x ∈ fields, Plain x.1.toList) :
    fields? names (object fields) = names.mapM fun name => only? name fields := by
  have hunescape : (fields.map fun field => (field.1.toList, field.2)).mapM
      (fun field => (unescape? field.1).map (·, field.2)) = some fields := by
    induction fields with
    | nil => rfl
    | cons field fields ih =>
      obtain ⟨hfield, hfields⟩ := List.forall_mem_cons.1 h
      simp only [List.map_cons, List.mapM_cons, unescape?_of_plain hfield, ih hfields]
      rfl
  exact congrArg (Option.bind · fun fields => names.mapM fun name => only? name fields) hunescape

theorem wellFormed_object {fields : List (String × Value)}
    (hnames : ∀ x ∈ fields, Plain x.1.toList) (hvalues : ∀ x ∈ fields, x.2.WellFormed) :
    (object fields).WellFormed := by
  refine .object (fun x hx => ?_) fun x hx => ?_
  all_goals obtain ⟨field, hfield, rfl⟩ := List.mem_map.1 hx
  · exact hnames field hfield
  · exact hvalues field hfield

/-- An object with a single field. -/
theorem wellFormed_tagged {name : String} {v : Value} (hname : Plain name.toList)
    (hv : v.WellFormed) : (object [(name, v)]).WellFormed :=
  wellFormed_object (List.forall_mem_singleton.2 hname) (List.forall_mem_singleton.2 hv)

theorem wellFormed_integer (n : Int) : (integer n).WellFormed :=
  .number (Numeral.wellFormed_ofInt n)

end Json

open Json (Value object integer plainString tagged? fields? outcome?)

/-! ### Operators -/

namespace Operator

theorem plain_name (op : Operator) : Json.Plain op.name.toList := by
  cases op <;> simp [name, Json.Plain]

theorem ofJson?_toJson (op : Operator) (room : Nat) : ofJson? room op.toJson = some op := by
  have hname := Json.unescape?_of_plain op.plain_name
  rw [toJson, plainString, ofJson?, hname]
  cases op <;> rfl

end Operator

/-! ### Expressions -/

namespace Expr

/-- The fields of an operator node. -/
def nodeParts (op : Operator) (left right : Expr) : List (String × Value) :=
  [("op", op.toJson), ("left", left.toJson), ("right", right.toJson)]

theorem plain_nodeParts (op : Operator) (left right : Expr) :
    ∀ x ∈ nodeParts op left right, Json.Plain x.1.toList := by
  simp only [nodeParts, List.forall_mem_cons]
  exact ⟨by simp [Json.Plain], by simp [Json.Plain], by simp [Json.Plain],
    List.forall_mem_nil _⟩

theorem fields?_nodeParts (op : Operator) (left right : Expr) :
    fields? nodeFields (object (nodeParts op left right)) =
      some [op.toJson, left.toJson, right.toJson] := by
  rw [Json.fields?_object _ (plain_nodeParts op left right)]
  rfl

theorem wellFormed_toJson (e : Expr) : e.toJson.WellFormed := by
  induction e with
  | constant n =>
    rw [toJson_constant]
    exact Json.wellFormed_tagged (by simp [Json.Plain]) (Json.wellFormed_integer _)
  | die faces =>
    rw [toJson_die]
    exact Json.wellFormed_tagged (by simp [Json.Plain]) (Json.wellFormed_integer _)
  | binary op left right ihl ihr =>
    have hnode : (object (nodeParts op left right)).WellFormed := by
      refine Json.wellFormed_object (plain_nodeParts op left right) ?_
      simp only [nodeParts, List.forall_mem_cons]
      exact ⟨.string op.plain_name, ihl, ihr, List.forall_mem_nil _⟩
    rw [toJson_binary]
    exact Json.wellFormed_tagged (by simp [Json.Plain]) hnode

theorem ofJson?_constant (n : Outcome) (room : Nat) :
    ofJson? (room + 1) (constant n).toJson = some (constant n) := by
  have htag := Json.tagged?_object "Constant" (by simp [Json.Plain]) (integer n.toInt)
  rw [toJson_constant]
  cases room <;> simp only [ofJson?, htag, Json.outcome?_integer, Option.map_some]

theorem ofJson?_die (faces : Outcome) (room : Nat) :
    ofJson? (room + 1) (die faces).toJson = some (die faces) := by
  have htag := Json.tagged?_object "Die" (by simp [Json.Plain]) (integer faces.toInt)
  rw [toJson_die]
  cases room <;> simp only [ofJson?, htag, Json.outcome?_integer, Option.map_some]

theorem tagged?_binary (op : Operator) (left right : Expr) :
    tagged? (binary op left right).toJson =
      some ("Operator", object (nodeParts op left right)) := by
  rw [toJson_binary]
  exact Json.tagged?_object "Operator" (by simp [Json.Plain]) _

/-- An operator node is read with room for two more objects than its operands. -/
theorem ofJson?_binary (op : Operator) (left right : Expr) (room : Nat) :
    ofJson? (room + 2) (binary op left right).toJson =
      (ofJson? room left.toJson).bind fun left =>
        (ofJson? room right.toJson).map fun right => binary op left right := by
  simp only [ofJson?, tagged?_binary, fields?_nodeParts, op.ofJson?_toJson]
  cases ofJson? room left.toJson with
  | none => rfl
  | some left => cases ofJson? room right.toJson <;> rfl

/-- **How deep an expression may be.** A leaf is one object, and every operator above it adds
two. -/
theorem ofJson?_toJson (e : Expr) (room : Nat) :
    ofJson? room e.toJson = if 2 * e.height + 1 ≤ room then some e else none := by
  induction e generalizing room with
  | constant n =>
    cases room with
    | zero => rfl
    | succ room => rw [ofJson?_constant, height, if_pos (by omega)]
  | die faces =>
    cases room with
    | zero => rfl
    | succ room => rw [ofJson?_die, height, if_pos (by omega)]
  | binary op left right ihl ihr =>
    obtain _ | _ | room := room
    · rw [height, if_neg (by omega), ofJson?]
    · rw [height, if_neg (by omega), ofJson?, tagged?_binary]
      rfl
    · have hheight : 2 * (max left.height right.height + 1) + 1 ≤ room + 2 ↔
          2 * left.height + 1 ≤ room ∧ 2 * right.height + 1 ≤ room := by
        omega
      simp only [ofJson?_binary, ihl, ihr, height, hheight]
      by_cases hleft : 2 * left.height + 1 ≤ room
      · by_cases hright : 2 * right.height + 1 ≤ room
        · simp [hleft, hright]
        · simp [hleft, hright]
      · simp [hleft]

end Expr

end DiceOdds
