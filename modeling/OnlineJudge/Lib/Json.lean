/-
# JSON documents

A JSON value with byte-string texts, and the accessors of a document object model in the style of
`nlohmann::json`: a lookup in something that is not an object, or of a member with another type,
raises.

The text form is not described here.  A program that prints and reads JSON is given a `Codec`, two
partial functions, and states what it relies on.  Two laws are used:

* `Codec.DumpsUtf8`: printing raises exactly when some text in the document is not well-formed
  UTF-8.
* `Codec.ReadsBack`: what is printed of a certain document is read as that document.

Numbers are integers or fractions, each of any size.  Where a conversion to a machine type loses
something, the accessor says what.
-/
import OnlineJudge.Lib.Utf8

/-- A JSON value.  Objects list their members, in the order in which they are printed. -/
inductive Json
  | null
  | bool (b : Bool)
  | int (n : Int)
  | float (x : Rat)
  | str (s : Bytes)
  | arr (items : List Json)
  | obj (members : List (Bytes × Json))

namespace Json

/-! ## 1. Texts

A document can be printed if all its texts are well-formed, the names of the members too. -/

mutual

/-- Every text in the value is well-formed UTF-8. -/
def utf8 : Json → Bool
  | str s => Utf8.wellFormed s
  | arr items => utf8Items items
  | obj members => utf8Members members
  | null | bool _ | int _ | float _ => true

/-- `utf8` for the items of an array. -/
def utf8Items : List Json → Bool
  | [] => true
  | v :: vs => utf8 v && utf8Items vs

/-- `utf8` for the members of an object, names included. -/
def utf8Members : List (Bytes × Json) → Bool
  | [] => true
  | (name, v) :: ms => Utf8.wellFormed name && utf8 v && utf8Members ms

end

@[simp] theorem utf8Items_append (vs ws : List Json) :
    utf8Items (vs ++ ws) = (utf8Items vs && utf8Items ws) := by
  induction vs with
  | nil => simp [utf8Items]
  | cons v vs ih => simp [utf8Items, ih, Bool.and_assoc]

@[simp] theorem utf8Members_append (ms ns : List (Bytes × Json)) :
    utf8Members (ms ++ ns) = (utf8Members ms && utf8Members ns) := by
  induction ms with
  | nil => simp [utf8Members]
  | cons m ms ih => simp [utf8Members, ih, Bool.and_assoc]

theorem utf8Items_eq_true {vs : List Json} :
    utf8Items vs = true ↔ ∀ v ∈ vs, v.utf8 = true := by
  induction vs with
  | nil => simp [utf8Items]
  | cons v vs ih => simp [utf8Items, ih]

/-! ## 2. Accessors

Each accessor either gives a value or raises one of two errors, as in the library.  The ones with a
fallback use it only for a member that is absent; a member of another type raises. -/

/-- What the accessors throw: the wrong type for a conversion, or a lookup in a value that is
not an object; and what printing throws. -/
inductive Error
  | type302
  | type306
  | utf8Text
deriving DecidableEq, Repr

/-- `is_array()`, with the items. -/
def items? : Json → Option (List Json)
  | arr items => some items
  | _ => none

/-- `is_object()`, with the members. -/
def members? : Json → Option (List (Bytes × Json))
  | obj members => some members
  | _ => none

/-- The member of this name, if the value is an object that has it. -/
def find? (v : Json) (name : Bytes) : Option Json :=
  v.members?.bind fun members => members.lookup name

/-- `get<std::string>()`. -/
def getStr : Json → Except Error Bytes
  | str s => .ok s
  | _ => .error .type302

/-- `static_cast<int>` from a wider number, for a 32-bit `int`. -/
def toInt32 (n : Int) : Int := n.bmod (2 ^ 32)

/-- `get<int>()`: any number or boolean, converted.  Of a fraction the part behind the point is
dropped; where the whole part does not fit an `int`, the conversion is undefined in C++, and here
it wraps. -/
def getInt : Json → Except Error Int
  | int n => .ok (toInt32 n)
  | float x => .ok (toInt32 (x.num.tdiv x.den))
  | bool b => .ok (if b then 1 else 0)
  | _ => .error .type302

/-- `get<long>()`, for a 64-bit `long`: a number, converted as for `get<int>()`; a boolean is
none. -/
def getLong : Json → Except Error Int64
  | int n => .ok (.ofInt n)
  | float x => .ok (.ofInt (x.num.tdiv x.den))
  | _ => .error .type302

def getBool : Json → Except Error Bool
  | bool b => .ok b
  | _ => .error .type302

/-- `value(name, fallback)` with a conversion. -/
def value {α : Type} (get : Json → Except Error α) (v : Json) (name : Bytes) (fallback : α) :
    Except Error α :=
  match v with
  | obj members =>
    match members.lookup name with
    | none => .ok fallback
    | some member => get member
  | _ => .error .type306

/-- `value(name, std::string)`. -/
def valueStr (v : Json) (name fallback : Bytes) : Except Error Bytes :=
  value getStr v name fallback

/-- `value(name, int)`. -/
def valueInt (v : Json) (name : Bytes) (fallback : Int) : Except Error Int :=
  value getInt v name fallback

/-- `value(name, long)`. -/
def valueLong (v : Json) (name : Bytes) (fallback : Int64) : Except Error Int64 :=
  value getLong v name fallback

/-- `value(name, bool)`. -/
def valueBool (v : Json) (name : Bytes) (fallback : Bool) : Except Error Bool :=
  value getBool v name fallback

/-- The value is a number that `get<long>()` converts to `n`: a fraction is dropped. -/
inductive AsLong : Json → Int64 → Prop
  | int (m : Int) : AsLong (.int m) (.ofInt m)
  | float (x : Rat) : AsLong (.float x) (.ofInt (x.num.tdiv x.den))

theorem getLong_eq_ok {v : Json} {n : Int64} : v.getLong = .ok n ↔ v.AsLong n := by
  constructor
  · intro h
    cases v with
    | int m => exact Except.ok.inj h ▸ .int m
    | float x => exact Except.ok.inj h ▸ .float x
    | _ => cases h
  · rintro (m | x) <;> rfl

theorem getStr_eq_ok {v : Json} {s : Bytes} : v.getStr = .ok s ↔ v = .str s := by
  constructor
  · intro h
    cases v with
    | str t => rw [Except.ok.inj h]
    | _ => cases h
  · rintro rfl
    rfl

theorem value_obj {α : Type} (get : Json → Except Error α) (members : List (Bytes × Json))
    (name : Bytes) (fallback : α) :
    value get (obj members) name fallback =
      match members.lookup name with
      | none => .ok fallback
      | some member => get member := rfl

/-- **A member with a default**: it is absent and the default is read, or it is there and is
converted. -/
theorem value_obj_eq_ok {α : Type} {get : Json → Except Error α} {members : List (Bytes × Json)}
    {name : Bytes} {fallback a : α} :
    value get (obj members) name fallback = .ok a ↔
      (members.lookup name = none ∧ a = fallback) ∨
        ∃ member, members.lookup name = some member ∧ get member = .ok a := by
  rw [value_obj]
  cases members.lookup name with
  | none => simp [eq_comm]
  | some member => simp

theorem exists_obj_of_value {α : Type} {get : Json → Except Error α} {v : Json} {name : Bytes}
    {fallback a : α} (h : value get v name fallback = .ok a) : ∃ members, v = obj members := by
  cases v with
  | obj members => exact ⟨members, rfl⟩
  | _ => cases h

/-! ## 3. The text form

Which text is printed for a document is left to the library, and with it the order of blanks and the
spelling of fractions. -/

/-- A printer and a parser.  `dump` is `none` where printing raises; `parse` fails with the
parser's message. -/
structure Codec where
  dump : Json → Option Bytes
  parse : Bytes → Except Bytes Json

/-- Printing raises exactly on a document with a text that is not well-formed UTF-8. -/
def Codec.DumpsUtf8 (c : Codec) : Prop := ∀ v : Json, (c.dump v).isSome = v.utf8

/-- What is printed for this document is read back as the document, and is not the empty text, which
stands for a failure in some of the callers. -/
def Codec.ReadsBack (c : Codec) (v : Json) : Prop :=
  ∀ text, c.dump v = some text → text ≠ [] ∧ c.parse text = .ok v

theorem Codec.DumpsUtf8.exists_dump {c : Codec} (h : c.DumpsUtf8) {v : Json}
    (hv : v.utf8 = true) : ∃ text, c.dump v = some text :=
  Option.isSome_iff_exists.mp ((h v).trans hv)

end Json
