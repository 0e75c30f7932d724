import TreeDump.Json.Basic

/-!
# Writing JSON without recursion

The writer keeps a stack of what is still to be written: pieces of text and whole values.  The
top of the stack is taken off, and a container puts its parts on the stack in place of itself.
Nesting costs stack entries instead of recursive calls, so it is bounded by memory only.

* `Json.render` is the text of a value, piece by piece.
-/

namespace TreeDump.Json

inductive Piece where
  | text (s : String)
  | value (level : Nat) (v : Json)

/-- The entries of the elements of an array; `first` tells whether no element came before. -/
def itemPieces (layout : Layout) (level : Nat) (first : Bool) : List Json → List Piece
  | [] => [.text (layout.newline level ++ "]")]
  | item :: items =>
    .text ((if first then "" else ",") ++ layout.newline (level + 1)) :: .value (level + 1) item
      :: itemPieces layout level false items

/-- The entries of the fields of an object. -/
def fieldPieces (layout : Layout) (level : Nat) (first : Bool) :
    List (String × Json) → List Piece
  | [] => [.text (layout.newline level ++ "\x7d")]
  | (key, value) :: fields =>
    .text ((if first then "" else ",") ++ layout.newline (level + 1) ++ quote key ++ layout.colon)
      :: .value (level + 1) value :: fieldPieces layout level false fields

/-- A value on top of the stack: the text to write now, and the entries that replace it. -/
def expand (layout : Layout) (level : Nat) : Json → String × List Piece
  | arr (item :: items) => ("[", itemPieces layout level true (item :: items))
  | obj (field :: fields) => ("\x7b", fieldPieces layout level true (field :: fields))
  | value => (scalar value, [])

/-! ## The measure -/

mutual

/-- The number of steps that writing a value takes. -/
def steps : Json → Nat
  | arr items => itemSteps items + 1
  | obj fields => fieldSteps fields + 1
  | _ => 1

def itemSteps : List Json → Nat
  | [] => 1
  | item :: items => 1 + steps item + itemSteps items

def fieldSteps : List (String × Json) → Nat
  | [] => 1
  | (_, value) :: fields => 1 + steps value + fieldSteps fields

end

def Piece.steps : Piece → Nat
  | .text _ => 1
  | .value _ v => Json.steps v

def pending : List Piece → Nat
  | [] => 0
  | piece :: stack => piece.steps + pending stack

theorem pending_cons (piece : Piece) (stack : List Piece) :
    pending (piece :: stack) = piece.steps + pending stack := rfl

theorem pending_append (upper lower : List Piece) :
    pending (upper ++ lower) = pending upper + pending lower := by
  induction upper with
  | nil => simp [pending]
  | cons piece upper ih => simp only [List.cons_append, pending_cons, ih, Nat.add_assoc]

theorem pending_itemPieces (layout : Layout) (level : Nat) (first : Bool) (items : List Json) :
    pending (itemPieces layout level first items) = itemSteps items := by
  induction items generalizing first with
  | nil => simp [itemPieces, itemSteps, pending, Piece.steps]
  | cons item items ih => simp [itemPieces, itemSteps, pending_cons, ih, Piece.steps]; omega

theorem pending_fieldPieces (layout : Layout) (level : Nat) (first : Bool)
    (fields : List (String × Json)) :
    pending (fieldPieces layout level first fields) = fieldSteps fields := by
  induction fields generalizing first with
  | nil => simp [fieldPieces, fieldSteps, pending, Piece.steps]
  | cons field fields ih =>
    obtain ⟨key, value⟩ := field
    simp [fieldPieces, fieldSteps, pending_cons, ih, Piece.steps]; omega

theorem steps_pos (v : Json) : 0 < steps v := by
  cases v <;> simp [steps]

theorem pending_expand (layout : Layout) (level : Nat) (v : Json) :
    pending (expand layout level v).2 < steps v := by
  unfold expand
  split
  · simp [pending_itemPieces, steps]
  · simp [pending_fieldPieces, steps]
  · simpa [pending] using steps_pos _

/-! ## The writer -/

/-- Writes a stack after the text `done`. -/
def renderStack (layout : Layout) (done : String) (stack : List Piece) : String :=
  match stack with
  | [] => done
  | .text s :: rest => renderStack layout (done ++ s) rest
  | .value level v :: rest =>
    renderStack layout (done ++ (expand layout level v).1) ((expand layout level v).2 ++ rest)
termination_by pending stack
decreasing_by
  · simp [pending_cons, Piece.steps]
  · have := pending_expand layout level v
    simp only [pending_append, pending_cons, Piece.steps]
    omega

def render (layout : Layout) (v : Json) : String := renderStack layout "" [.value 0 v]

/-- The text of a value without any blanks. -/
def compact (v : Json) : String := render .compact v

end TreeDump.Json
