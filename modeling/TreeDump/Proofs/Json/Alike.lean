import Mathlib.Data.List.Forall2
import TreeDump.Json.Basic

/-!
# Objects without an order of fields

Objects keep the order in which their fields were put.  Values are alike if they are equal but for
that order, at every depth.

* `Alike.agree`: alike objects have the same keys, with values that are alike.
* `Alike.under`: what alike objects have under a key that is there or not.
-/

namespace TreeDump.Json

/-- Equality of values in which the order of fields does not count. -/
inductive Alike : Json → Json → Prop where
  | null : Alike .null .null
  | bool (b : Bool) : Alike (.bool b) (.bool b)
  | int (n : Int) : Alike (.int n) (.int n)
  | str (s : String) : Alike (.str s) (.str s)
  | arr {items others : List Json} (hItems : List.Forall₂ Alike items others) :
      Alike (.arr items) (.arr others)
  | obj {fields shuffled others : List (String × Json)} (hOrder : fields.Perm shuffled)
      (hKeys : shuffled.map Prod.fst = others.map Prod.fst)
      (hValues : List.Forall₂ Alike (shuffled.map Prod.snd) (others.map Prod.snd)) :
      Alike (.obj fields) (.obj others)

mutual

theorem Alike.refl : ∀ value : Json, Alike value value
  | .null => .null
  | .bool b => .bool b
  | .int n => .int n
  | .str s => .str s
  | .arr items => .arr (alike_items items)
  | .obj fields => .obj (List.Perm.refl fields) rfl (alike_fields fields)

theorem alike_items : ∀ items : List Json, List.Forall₂ Alike items items
  | [] => .nil
  | item :: rest => .cons (Alike.refl item) (alike_items rest)

theorem alike_fields : ∀ fields : List (String × Json),
    List.Forall₂ Alike (fields.map Prod.snd) (fields.map Prod.snd)
  | [] => .nil
  | (_, value) :: rest => .cons (Alike.refl value) (alike_fields rest)

end

/-! ## Fields of alike objects -/

/-- Fields of either list have fields of the other with the same key and an alike value. -/
structure Agree (fields others : List (String × Json)) : Prop where
  there : ∀ {key value}, (key, value) ∈ fields → ∃ other, (key, other) ∈ others ∧ Alike value other
  back : ∀ {key other}, (key, other) ∈ others → ∃ value, (key, value) ∈ fields ∧ Alike value other

theorem Agree.cons {fields others : List (String × Json)} {key : String} {value other : Json}
    (h : Agree fields others) (hAlike : Alike value other) :
    Agree ((key, value) :: fields) ((key, other) :: others) where
  there := by
    intro searched found hMem
    rcases List.mem_cons.mp hMem with hFirst | hRest
    · obtain ⟨rfl, rfl⟩ := Prod.mk.inj hFirst
      exact ⟨other, List.mem_cons_self, hAlike⟩
    · obtain ⟨beside, hBeside, hSame⟩ := h.there hRest
      exact ⟨beside, List.mem_cons_of_mem _ hBeside, hSame⟩
  back := by
    intro searched found hMem
    rcases List.mem_cons.mp hMem with hFirst | hRest
    · obtain ⟨rfl, rfl⟩ := Prod.mk.inj hFirst
      exact ⟨value, List.mem_cons_self, hAlike⟩
    · obtain ⟨beside, hBeside, hSame⟩ := h.back hRest
      exact ⟨beside, List.mem_cons_of_mem _ hBeside, hSame⟩

theorem agree_of_beside {fields others : List (String × Json)}
    (hKeys : fields.map Prod.fst = others.map Prod.fst)
    (hValues : List.Forall₂ Alike (fields.map Prod.snd) (others.map Prod.snd)) :
    Agree fields others := by
  induction fields generalizing others with
  | nil =>
    obtain rfl := List.map_eq_nil_iff.mp hKeys.symm
    exact ⟨fun hMem => absurd hMem List.not_mem_nil, fun hMem => absurd hMem List.not_mem_nil⟩
  | cons field fields ih =>
    cases others with
    | nil => cases hKeys
    | cons other others =>
      obtain ⟨key, value⟩ := field
      obtain ⟨rfl, hLater⟩ := List.cons.inj hKeys
      obtain ⟨hValue, hValues⟩ := List.forall₂_cons.mp hValues
      exact (ih hLater hValues).cons hValue

theorem Alike.agree {fields others : List (String × Json)}
    (h : Alike (.obj fields) (.obj others)) : Agree fields others := by
  cases h with
  | obj hOrder hKeys hValues =>
    have hAgree := agree_of_beside hKeys hValues
    constructor
    · exact fun hMem => hAgree.there (hOrder.mem_iff.mp hMem)
    · intro key other hMem
      obtain ⟨value, hValue, hAlike⟩ := hAgree.back hMem
      exact ⟨value, hOrder.mem_iff.mpr hValue, hAlike⟩

/-- What alike objects have under a key that is there or not. -/
theorem Alike.under {α : Type} {fields others : List (String × Json)} {value : α → Json}
    {a b : Option α} (h : Alike (.obj fields) (.obj others)) (key : String)
    (hField : ∀ v, (key, v) ∈ fields ↔ ∃ x, a = some x ∧ v = value x)
    (hOther : ∀ v, (key, v) ∈ others ↔ ∃ y, b = some y ∧ v = value y) :
    Option.Rel (fun x y => Alike (value x) (value y)) a b := by
  cases a with
  | none =>
    cases b with
    | none => exact .none
    | some y =>
      obtain ⟨v, hMem, -⟩ := h.agree.back ((hOther (value y)).mpr ⟨y, rfl, rfl⟩)
      obtain ⟨x, hNone, -⟩ := (hField v).mp hMem
      cases hNone
  | some x =>
    obtain ⟨v, hMem, hAlike⟩ := h.agree.there ((hField (value x)).mpr ⟨x, rfl, rfl⟩)
    obtain ⟨y, rfl, rfl⟩ := (hOther v).mp hMem
    exact .some hAlike

/-- Where equal values alone are alike, alike objects have the same under a key. -/
theorem Alike.eq_under {α : Type} {fields others : List (String × Json)} {value : α → Json}
    {a b : Option α} (h : Alike (.obj fields) (.obj others)) (key : String)
    (hInj : ∀ {x y : α}, Alike (value x) (value y) → x = y)
    (hField : ∀ v, (key, v) ∈ fields ↔ ∃ x, a = some x ∧ v = value x)
    (hOther : ∀ v, (key, v) ∈ others ↔ ∃ y, b = some y ∧ v = value y) : a = b := by
  cases h.under key hField hOther with
  | none => rfl
  | some hAlike => rw [hInj hAlike]

theorem Alike.int_inj {m n : Int} (h : Alike (.int m) (.int n)) : m = n := by
  cases h
  rfl

theorem Alike.str_inj {s t : String} (h : Alike (.str s) (.str t)) : s = t := by
  cases h
  rfl

theorem Alike.items {items others : List Json} (h : Alike (.arr items) (.arr others)) :
    List.Forall₂ Alike items others := by
  cases h with
  | arr hItems => exact hItems

end TreeDump.Json
