import Stencil.Function.Builtin
import Stencil.Proofs.Number.FixedPlaces
import Stencil.Proofs.Values.Trees

/-!
# JSON texts can be told apart

A JSON text shows where it ends: a tree is known by its first character, a string ends at the first quote that no
backslash stands before, and a number ends where no digit follows. So a text is that of one tree only, whatever is
written behind it. Numbers are integers here.

* `Json.textOf_append_inj`: the text of a tree in front of other text determines the tree.
* `Value.text_eq_text_iff`: arrays and maps have one text only if they are the same, entries in the same order.
-/

namespace Stencil

/-! ## Integers -/

/-- Whether a text can follow a number: no digit comes first. -/
def EndsNumber (rest : List Char) : Prop := ∀ c ∈ rest.head?, c.isDigit = false

namespace Decimal

variable {rest rest' : List Char}

theorem takeWhile_digits_append (n : Nat) (ends : EndsNumber rest) :
    (digits n ++ rest).takeWhile Char.isDigit = digits n := by
  rw [List.takeWhile_append_of_pos fun _ => isDigit_of_mem_digits]
  cases rest with
  | nil => simp
  | cons c rest => simp [ends c rfl]

/-- The digits of a number in front of other text determine the number. -/
theorem digits_append_inj {m n : Nat} (ends : EndsNumber rest) (ends' : EndsNumber rest')
    (h : digits m ++ rest = digits n ++ rest') : m = n ∧ rest = rest' := by
  have same : digits m = digits n := by
    rw [← takeWhile_digits_append m ends, h, takeWhile_digits_append n ends']
  refine ⟨digits_injective same, ?_⟩
  rw [same] at h
  exact List.append_cancel_left h

/-- No digits start with a minus sign. -/
theorem digits_append_ne_minus (n : Nat) (cs : List Char) : digits n ++ rest ≠ '-' :: cs := by
  obtain ⟨c, ds, first, noMinus, -⟩ := digits_eq_cons n
  intro h
  rw [first] at h
  exact noMinus (List.cons.inj h).1

theorem toList_integerText (n : Int) :
    (integerText n).toList = if n < 0 then '-' :: digits n.natAbs else digits n.natAbs := by
  rw [integerText, String.toList_ofList]

/-- The text of an integer in front of other text determines the integer. -/
theorem integerText_append_inj {m n : Int} (ends : EndsNumber rest) (ends' : EndsNumber rest')
    (h : (integerText m).toList ++ rest = (integerText n).toList ++ rest') : m = n ∧ rest = rest' := by
  rw [toList_integerText, toList_integerText] at h
  by_cases hm : m < 0 <;> by_cases hn : n < 0
  · rw [if_pos hm, if_pos hn, List.cons_append, List.cons_append, List.cons.injEq] at h
    obtain ⟨size, same⟩ := digits_append_inj ends ends' h.2
    exact ⟨by omega, same⟩
  · rw [if_pos hm, if_neg hn] at h
    exact absurd h.symm (digits_append_ne_minus _ _)
  · rw [if_neg hm, if_pos hn] at h
    exact absurd h (digits_append_ne_minus _ _)
  · rw [if_neg hm, if_neg hn] at h
    obtain ⟨size, same⟩ := digits_append_inj ends ends' h
    exact ⟨by omega, same⟩

end Decimal

namespace Json

/-! ## Strings -/

def hexValue (c : Char) : Nat := if c.isDigit then c.toNat - 48 else c.toNat - 87

/-- The character that the front of a text within quotes stands for, and what is behind it. -/
def unescape : List Char → Option (Char × List Char)
  | [] | ['\\'] => none
  | '\\' :: 'u' :: _ :: _ :: high :: low :: cs => some (Char.ofNat (16 * hexValue high + hexValue low), cs)
  | '\\' :: c :: cs =>
    some (if c = 'b' then Char.ofNat 8 else if c = 'f' then Char.ofNat 12 else if c = 'n' then '\n'
      else if c = 'r' then '\r' else if c = 't' then '\t' else c, cs)
  | c :: cs => if c = '"' then none else some (c, cs)

/-- The two digits of a control character give its code. -/
theorem hexValue_hexDigit {n : Nat} (control : n < 32) :
    16 * hexValue (hexDigit (n / 16)) + hexValue (hexDigit (n % 16)) = n := by
  have all : ∀ n < 32, 16 * hexValue (hexDigit (n / 16)) + hexValue (hexDigit (n % 16)) = n := by decide
  exact all n control

/-- **Escapes can be read back**, whatever follows. -/
theorem unescape_escape (c : Char) (rest : List Char) : unescape (escape c ++ rest) = some (c, rest) := by
  have code {n : Nat} (h : c.toNat = n) : Char.ofNat n = c := by rw [← h, Char.ofNat_toNat]
  unfold escape
  split
  · next quote => rw [quote]; rfl
  split
  · next backslash => rw [backslash]; rfl
  split
  · next backspace => rw [← code backspace]; rfl
  split
  · next formFeed => rw [← code formFeed]; rfl
  split
  · next newline => rw [newline]; rfl
  split
  · next carriageReturn => rw [carriageReturn]; rfl
  split
  · next tab => rw [tab]; rfl
  split
  · next control => simp [unescape, hexValue_hexDigit control, Char.ofNat_toNat]
  · next noQuote noBackslash _ _ _ _ _ _ =>
    rw [List.singleton_append, unescape.eq_def]
    split <;> simp_all

/-- The escaped characters of a string end at its closing quote. -/
theorem escaped_append_inj {cs ds rest rest' : List Char}
    (h : cs.flatMap escape ++ '"' :: rest = ds.flatMap escape ++ '"' :: rest') : cs = ds ∧ rest = rest' := by
  have closing (rest : List Char) : unescape ('"' :: rest) = none := rfl
  induction cs generalizing ds with
  | nil =>
    cases ds with
    | nil => exact ⟨rfl, (List.cons.inj h).2⟩
    | cons d ds =>
      have read := congrArg unescape h
      rw [List.flatMap_nil, List.nil_append, closing, List.flatMap_cons, List.append_assoc, unescape_escape] at read
      cases read
  | cons c cs ih =>
    have read := congrArg unescape h
    rw [List.flatMap_cons, List.append_assoc, unescape_escape] at read
    cases ds with
    | nil =>
      rw [List.flatMap_nil, List.nil_append, closing] at read
      cases read
    | cons d ds =>
      rw [List.flatMap_cons, List.append_assoc, unescape_escape, Option.some.injEq, Prod.mk.injEq] at read
      obtain ⟨rfl, behind⟩ := read
      obtain ⟨rfl, same⟩ := ih behind
      exact ⟨rfl, same⟩

/-- A string between quotes in front of other text determines the string. -/
theorem quote_append_inj {s t : String} {rest rest' : List Char} (h : quote s ++ rest = quote t ++ rest') :
    s = t ∧ rest = rest' := by
  simp only [quote, List.cons_append, List.append_assoc, List.nil_append, List.cons.injEq, true_and] at h
  obtain ⟨same, behind⟩ := escaped_append_inj h
  exact ⟨String.toList_inj.1 same, behind⟩

/-! ## First characters -/

/-- Trees without floating-point numbers. -/
inductive FloatFree : Json → Prop
  | null : FloatFree .null
  | bool (b : Bool) : FloatFree (.bool b)
  | integer (n : Int) : FloatFree (.integer n)
  | string (s : String) : FloatFree (.string s)
  | array (items : List Json) (each : ∀ j ∈ items, FloatFree j) : FloatFree (.array items)
  | object (fields : List (String × Json)) (each : ∀ f ∈ fields, FloatFree f.2) : FloatFree (.object fields)

/-- What the first character of a text shows of its tree. -/
inductive Shape where
  | null
  | bool (b : Bool)
  | number
  | string
  | array
  | object
  deriving DecidableEq, Repr

def shape : Json → Shape
  | .null => .null
  | .bool b => .bool b
  | .integer _ | .float _ => .number
  | .string _ => .string
  | .array _ => .array
  | .object _ => .object

def Shape.ofChar? (c : Char) : Option Shape :=
  if c = '-' ∨ c.isDigit then some .number
  else if c = 'n' then some .null
  else if c = 't' then some (.bool true)
  else if c = 'f' then some (.bool false)
  else if c = '"' then some .string
  else if c = '[' then some .array
  else if c = '\x7b' then some .object
  else none

/-- The first character of a text shows the shape of its tree. -/
theorem FloatFree.head? {j : Json} (h : FloatFree j) :
    ∃ c cs, textOf j = c :: cs ∧ Shape.ofChar? c = some j.shape := by
  cases h with
  | null => exact ⟨'n', _, rfl, rfl⟩
  | bool b =>
    cases b with
    | true => exact ⟨'t', _, rfl, rfl⟩
    | false => exact ⟨'f', _, rfl, rfl⟩
  | integer n =>
    rw [textOf, Decimal.toList_integerText]
    split
    · exact ⟨'-', _, rfl, rfl⟩
    · obtain ⟨c, cs, first⟩ := List.exists_cons_of_ne_nil (Decimal.digits_ne_nil n.natAbs)
      have digit : c.isDigit = true := Decimal.isDigit_of_mem_digits (n := n.natAbs) (by simp [first])
      exact ⟨c, cs, first, if_pos (.inr digit)⟩
  | string s => exact ⟨'"', _, rfl, rfl⟩
  | array items =>
    cases items with
    | nil => exact ⟨'[', _, rfl, rfl⟩
    | cons => exact ⟨'[', _, rfl, rfl⟩
  | object fields =>
    cases fields with
    | nil => exact ⟨'\x7b', _, rfl, rfl⟩
    | cons => exact ⟨'\x7b', _, rfl, rfl⟩

/-- A text that starts as that of a tree does is that of a tree of the same shape. -/
theorem FloatFree.shape_eq {a b : Json} (ha : FloatFree a) (hb : FloatFree b) {rest rest' : List Char}
    (h : textOf a ++ rest = textOf b ++ rest') : a.shape = b.shape := by
  obtain ⟨c, cs, ca, sa⟩ := ha.head?
  obtain ⟨d, ds, db, sb⟩ := hb.head?
  rw [ca, db, List.cons_append, List.cons_append, List.cons.injEq] at h
  rw [h.1, sb] at sa
  exact (Option.some.inj sa).symm

/-- No tree starts with the bracket or brace that closes one. -/
theorem FloatFree.textOf_append_ne {j : Json} (h : FloatFree j) {rest cs : List Char} {c : Char}
    (closing : Shape.ofChar? c = none) : textOf j ++ rest ≠ c :: cs := by
  obtain ⟨d, ds, first, shape⟩ := h.head?
  intro same
  rw [first, List.cons_append, List.cons.injEq] at same
  rw [same.1, closing] at shape
  cases shape

/-! ## Trees -/

/-- Whether the text of a tree in front of other text determines the tree. -/
def Determined (a : Json) : Prop := ∀ ⦃b : Json⦄, FloatFree b → ∀ ⦃rest rest' : List Char⦄,
  EndsNumber rest → EndsNumber rest' → textOf a ++ rest = textOf b ++ rest' → a = b ∧ rest = rest'

variable {rest rest' : List Char}

theorem endsNumber_itemsText (items : List Json) (rest : List Char) : EndsNumber (itemsText items ++ rest) := by
  intro c first
  cases items <;>
  · cases first
    rfl

theorem endsNumber_fieldsText (fields : List (String × Json)) (rest : List Char) :
    EndsNumber (fieldsText fields ++ rest) := by
  intro c first
  cases fields <;>
  · cases first
    rfl

theorem itemsText_append_inj {as bs : List Json} (each : ∀ a ∈ as, Determined a) (hbs : ∀ b ∈ bs, FloatFree b)
    (h : itemsText as ++ rest = itemsText bs ++ rest') : as = bs ∧ rest = rest' := by
  induction as generalizing bs with
  | nil =>
    cases bs with
    | nil => exact ⟨rfl, (List.cons.inj h).2⟩
    | cons b bs => exact absurd (List.cons.inj h).1 (by decide)
  | cons a as ih =>
    cases bs with
    | nil => exact absurd (List.cons.inj h).1 (by decide)
    | cons b bs =>
      simp only [itemsText, List.cons_append, List.append_assoc, List.cons.injEq, true_and] at h
      obtain ⟨rfl, behind⟩ := each a List.mem_cons_self (hbs b List.mem_cons_self) (endsNumber_itemsText as rest)
        (endsNumber_itemsText bs rest') h
      obtain ⟨rfl, same⟩ := ih (fun x hx => each x (List.mem_cons_of_mem a hx))
        (fun x hx => hbs x (List.mem_cons_of_mem a hx)) behind
      exact ⟨rfl, same⟩

theorem fieldsText_append_inj {as bs : List (String × Json)} (each : ∀ a ∈ as, Determined a.2)
    (hbs : ∀ b ∈ bs, FloatFree b.2) (h : fieldsText as ++ rest = fieldsText bs ++ rest') : as = bs ∧ rest = rest' := by
  induction as generalizing bs with
  | nil =>
    cases bs with
    | nil => exact ⟨rfl, (List.cons.inj h).2⟩
    | cons b bs => exact absurd (List.cons.inj h).1 (by decide)
  | cons a as ih =>
    obtain ⟨key, a⟩ := a
    cases bs with
    | nil => exact absurd (List.cons.inj h).1 (by decide)
    | cons b bs =>
      obtain ⟨key', b⟩ := b
      simp only [fieldsText, List.cons_append, List.append_assoc, List.cons.injEq, true_and] at h
      obtain ⟨sameKey, behind⟩ := quote_append_inj h
      obtain ⟨sameValue, behind⟩ := each (key, a) List.mem_cons_self (hbs (key', b) List.mem_cons_self)
        (endsNumber_fieldsText as rest) (endsNumber_fieldsText bs rest') (List.cons.inj behind).2
      obtain ⟨rfl, same⟩ := ih (fun x hx => each x (List.mem_cons_of_mem _ hx))
        (fun x hx => hbs x (List.mem_cons_of_mem _ hx)) behind
      exact ⟨by rw [sameKey, show a = b from sameValue], same⟩

theorem determined_array {as : List Json} (each : ∀ a ∈ as, FloatFree a) (determined : ∀ a ∈ as, Determined a) :
    Determined (.array as) := by
  intro b hb rest rest' _ _ h
  have shape := (FloatFree.array as each).shape_eq hb h
  cases hb with
  | array bs each' =>
    cases as with
    | nil =>
      cases bs with
      | nil => exact ⟨rfl, List.append_cancel_left h⟩
      | cons b bs =>
        simp only [textOf, List.cons_append, List.append_assoc, List.cons.injEq, true_and] at h
        exact absurd h.symm ((each' b List.mem_cons_self).textOf_append_ne rfl)
    | cons a as =>
      cases bs with
      | nil =>
        simp only [textOf, List.cons_append, List.append_assoc, List.cons.injEq, true_and] at h
        exact absurd h ((each a List.mem_cons_self).textOf_append_ne rfl)
      | cons b bs =>
        -- Behind the bracket, the items read as they do behind a comma.
        have items : itemsText (a :: as) ++ rest = itemsText (b :: bs) ++ rest' := by
          simpa [textOf, itemsText] using h
        obtain ⟨same, behind⟩ := itemsText_append_inj determined each' items
        exact ⟨by rw [same], behind⟩
  | _ => cases shape

theorem determined_object {as : List (String × Json)} (each : ∀ a ∈ as, FloatFree a.2)
    (determined : ∀ a ∈ as, Determined a.2) : Determined (.object as) := by
  intro b hb rest rest' _ _ h
  have shape := (FloatFree.object as each).shape_eq hb h
  cases hb with
  | object bs each' =>
    cases as with
    | nil =>
      cases bs with
      | nil => exact ⟨rfl, List.append_cancel_left h⟩
      | cons b bs => simp [textOf, quote] at h
    | cons a as =>
      cases bs with
      | nil => simp [textOf, quote] at h
      | cons b bs =>
        have fields : fieldsText (a :: as) ++ rest = fieldsText (b :: bs) ++ rest' := by
          simpa [textOf, fieldsText] using h
        obtain ⟨same, behind⟩ := fieldsText_append_inj determined each' fields
        exact ⟨by rw [same], behind⟩
  | _ => cases shape

/-- **JSON texts are unambiguous.** The text of a tree in front of other text determines the tree, and so where its text
ends. -/
theorem textOf_append_inj {a : Json} (ha : FloatFree a) : Determined a := by
  induction ha with
  | null =>
    intro b hb rest rest' _ _ h
    have shape := FloatFree.null.shape_eq hb h
    cases hb with
    | null => exact ⟨rfl, List.append_cancel_left h⟩
    | _ => cases shape
  | bool a =>
    intro b hb rest rest' _ _ h
    have shape := (FloatFree.bool a).shape_eq hb h
    cases hb with
    | bool b =>
      cases shape
      exact ⟨rfl, List.append_cancel_left h⟩
    | _ => cases shape
  | integer m =>
    intro b hb rest rest' ends ends' h
    have shape := (FloatFree.integer m).shape_eq hb h
    cases hb with
    | integer n =>
      rw [textOf, textOf] at h
      obtain ⟨rfl, same⟩ := Decimal.integerText_append_inj ends ends' h
      exact ⟨rfl, same⟩
    | _ => cases shape
  | string s =>
    intro b hb rest rest' _ _ h
    have shape := (FloatFree.string s).shape_eq hb h
    cases hb with
    | string t =>
      rw [textOf, textOf] at h
      obtain ⟨rfl, same⟩ := quote_append_inj h
      exact ⟨rfl, same⟩
    | _ => cases shape
  | array as each ih => exact determined_array each ih
  | object as each ih => exact determined_object each ih

end Json

/-! ## Values -/

namespace Value

/-- Values that JSON has a form for, without floating-point numbers. -/
abbrev IsExact : Value → Prop := JsonLike fun _ => False

theorem IsExact.floatFree_toJson {v : Value} (h : v.IsExact) : v.toJson.FloatFree := by
  induction h with
  | null => exact .null
  | bool b => exact .bool b
  | integer n => exact .integer _
  | float _ no => exact no.elim
  | string s => exact .string s
  | array items _ ih =>
    rw [toJson, itemsToJson_eq_map]
    exact .array _ fun j hj => by
      obtain ⟨v, hv, rfl⟩ := List.mem_map.1 hj
      exact ih v hv
  | map entries _ ih =>
    rw [toJson, entriesToJson_eq_map]
    exact .object _ fun f hf => by
      obtain ⟨e, he, rfl⟩ := List.mem_map.1 hf
      exact ih e he

theorem text_eq_of_isCollection {v : Value} (h : v.isCollection = true) : v.text = v.toJson.text := by
  cases v with
  | array | map => rfl
  | _ => cases h

theorem isNull_of_isCollection {v : Value} (h : v.isCollection = true) : v.isNull = false := by
  cases v with
  | array | map => rfl
  | _ => cases h

/-- Values without floating-point numbers have one JSON text only if they are the same. -/
theorem toJson_text_eq_iff {a b : Value} (ha : a.IsExact) (hb : b.IsExact) :
    a.toJson.text = b.toJson.text ↔ a = b := by
  refine ⟨fun h => ?_, fun h => by rw [h]⟩
  have texts : Json.textOf a.toJson ++ [] = Json.textOf b.toJson ++ [] := by
    simpa [Json.text] using congrArg String.toList h
  have trees := (Json.textOf_append_inj ha.floatFree_toJson hb.floatFree_toJson (by simp [EndsNumber])
    (by simp [EndsNumber]) texts).1
  rw [← ofJson_toJson (ha.imp fun _ no => no.elim), trees, ofJson_toJson (hb.imp fun _ no => no.elim)]

/-- **Collections are told apart by their text.** Arrays and maps of exact values have one JSON text, which is the text
that they are shown as, only if they are the same tree with all entries in the same order. So the function `equals` is
true of two of them exactly in this case. -/
theorem text_eq_text_iff {a b : Value} (ha : a.IsExact) (hb : b.IsExact) (collection : a.isCollection = true)
    (collection' : b.isCollection = true) :
    (a.toJson.text = b.toJson.text ↔ a = b) ∧ (a.text = b.text ↔ a = b)
      ∧ ∃ equals, Builtin.function? "equals" = some equals ∧ ∀ (name : String) (context : Option Surroundings),
        ∃ same : Bool, equals.invoke ⟨name, [.value a, .value b], context⟩ = .ok (.bool same)
          ∧ (same = true ↔ a = b) := by
  have texts := toJson_text_eq_iff ha hb
  have shown : a.text = b.text ↔ a = b := by
    rw [text_eq_of_isCollection collection, text_eq_of_isCollection collection', texts]
  refine ⟨texts, shown, _, rfl, fun name context => ⟨Builtin.sameText a b, rfl, ?_⟩⟩
  simp [Builtin.sameText, isNull_of_isCollection collection, isNull_of_isCollection collection', shown]

/-- Quotes and commas in a text do not make it look like two. -/
theorem text_eq_text_iff_quotes :
    let a := Value.array [.string "a\",\"b"]
    let b := Value.array [.string "a", .string "b"]
    a.IsExact ∧ b.IsExact ∧ a.isCollection = true ∧ b.isCollection = true ∧ a.toJson.text ≠ b.toJson.text := by
  intro a b
  have exactA : a.IsExact := .array _ (List.forall_mem_singleton.2 (.string _))
  have exactB : b.IsExact := .array _ (List.forall_mem_cons.2 ⟨.string _, List.forall_mem_singleton.2 (.string _)⟩)
  have different : a ≠ b := by simp [a, b]
  exact ⟨exactA, exactB, rfl, rfl, fun same => different ((text_eq_text_iff exactA exactB rfl rfl).1.1 same)⟩

end Value

end Stencil
