import TreeDump.Proofs.Json.Alike
import TreeDump.Proofs.Tree.Builder
import TreeDump.Proofs.Tree.Leaves

/-!
# Walks and values of nodes

A walk and a conversion keep stacks of what is still to be looked at.  A place in a tree is the list
of the numbers of the children that lead there from the root, so that one order on places says both
that a walk misses nothing and that it comes to nothing twice.

* `walk_eq`: a walk lists the node and then the walks of its children, one after the other.
* `map_at?_places`: a walk lists the nodes at all places, in the order of the places.
* `toObject_eq_toJson`: objects that are filled in place are those of the recursion.
* `eq_of_alike`: nodes whose objects are alike are equal.
* `walk_toObject_faithful`: all of that for every tree of nodes.
-/

namespace TreeDump.Node

/-! ## The places of a tree -/

theorem preorderList_eq_flatMap (nodes : List Node) :
    preorderList nodes = nodes.flatMap preorder := by
  induction nodes with
  | nil => rfl
  | cons n rest ih => rw [preorderList, ih, List.flatMap_cons]

/-- A walk lists a node and then the walks of its children, one after the other. -/
theorem walk_eq (n : Node) : n.walk = n :: n.childList.flatMap walk := by
  have hWalk : walk = preorder := funext walk_eq_preorder
  rw [hWalk, preorder_eq, preorderList_eq_flatMap]

/-- The node at a place, which tells for each level the number of the child to go on to. -/
def at? (n : Node) : List Nat → Option Node
  | [] => some n
  | number :: place => n.childList[number]?.bind fun child => child.at? place

mutual

/-- The places of a tree: that of its root, then those below each child in turn. -/
def places : Node → List (List Nat)
  | node _ _ _ children _ => [] :: placesBelow children

def placesBelow : Option (List Node) → List (List Nat)
  | some children => placesFrom 0 children
  | none => []

/-- The places of trees that are numbered from `first` on. -/
def placesFrom (first : Nat) : List Node → List (List Nat)
  | [] => []
  | n :: rest => n.places.map (first :: ·) ++ placesFrom (first + 1) rest

end

theorem places_eq (n : Node) : n.places = [] :: placesFrom 0 n.childList := by
  obtain ⟨kind, start, stop, children, text⟩ := n
  cases children <;> rfl

theorem mem_placesFrom {first : Nat} {nodes : List Node} {place : List Nat} :
    place ∈ placesFrom first nodes
      ↔ ∃ i n below, nodes[i]? = some n ∧ below ∈ n.places ∧ place = (first + i) :: below := by
  induction nodes generalizing first with
  | nil => simp [placesFrom]
  | cons n rest ih =>
    rw [placesFrom, List.mem_append, List.mem_map, ih]
    constructor
    · rintro (⟨below, hBelow, rfl⟩ | ⟨i, other, below, hOther, hBelow, rfl⟩)
      · exact ⟨0, n, below, rfl, hBelow, rfl⟩
      · exact ⟨i + 1, other, below, by simpa using hOther, hBelow, by rw [Nat.add_right_comm]; rfl⟩
    · rintro ⟨i, other, below, hOther, hBelow, rfl⟩
      cases i with
      | zero =>
        obtain rfl := Option.some_inj.mp hOther
        exact Or.inl ⟨below, hBelow, rfl⟩
      | succ i =>
        exact Or.inr ⟨i, other, below, by simpa using hOther, hBelow, by
          rw [Nat.add_right_comm]; rfl⟩

/-- The places are those at which there is a node. -/
theorem mem_places_iff {n : Node} {place : List Nat} :
    place ∈ n.places ↔ (n.at? place).isSome := by
  induction place generalizing n with
  | nil => simp [places_eq, at?]
  | cons number place ih =>
    rw [places_eq, List.mem_cons, mem_placesFrom, at?]
    constructor
    · rintro (hRoot | ⟨i, child, below, hChild, hBelow, hPlace⟩)
      · cases hRoot
      · obtain ⟨rfl, rfl⟩ := List.cons.inj hPlace
        rw [Nat.zero_add, hChild]
        exact ih.mp hBelow
    · intro hSome
      obtain ⟨found, hFound⟩ := Option.isSome_iff_exists.mp hSome
      obtain ⟨child, hChild, hBelow⟩ := Option.bind_eq_some_iff.mp hFound
      have hPlace : place ∈ child.places := ih.mpr (Option.isSome_of_eq_some hBelow)
      exact Or.inr ⟨number, child, place, hChild, hPlace, by rw [Nat.zero_add]⟩

mutual

/-- The places of a tree are in order, each before those below it and beside it. -/
theorem pairwise_places : ∀ n : Node, n.places.Pairwise (· < ·)
  | node kind start stop none text => List.pairwise_singleton _ _
  | node kind start stop (some children) text => by
    rw [places, placesBelow, List.pairwise_cons]
    refine ⟨?_, pairwise_placesFrom 0 children⟩
    intro place hMem
    obtain ⟨i, child, below, -, -, rfl⟩ := mem_placesFrom.mp hMem
    exact List.nil_lt_cons _ _

theorem pairwise_placesFrom : ∀ (first : Nat) (nodes : List Node),
    (placesFrom first nodes).Pairwise (· < ·)
  | _, [] => List.Pairwise.nil
  | first, n :: rest => by
    rw [placesFrom, List.pairwise_append]
    refine ⟨?_, pairwise_placesFrom (first + 1) rest, ?_⟩
    · apply (pairwise_places n).map
      intro below other hLt
      exact List.cons_lt_cons_iff.mpr (Or.inr ⟨rfl, hLt⟩)
    · intro place hPlace other hOther
      obtain ⟨below, -, rfl⟩ := List.mem_map.mp hPlace
      obtain ⟨i, child, below, -, -, rfl⟩ := mem_placesFrom.mp hOther
      exact List.cons_lt_cons_iff.mpr (Or.inl (by omega))

end

mutual

theorem map_at?_preorder : ∀ n : Node, n.places.map n.at? = n.preorder.map some
  | node kind start stop none text => rfl
  | node kind start stop (some children) text => by
    rw [places, placesBelow, preorder, preorderChildren, List.map_cons, List.map_cons, at?]
    congr 1
    apply map_at?_preorderList 0 children
    intro i child hChild below
    rw [Nat.zero_add, at?, childList, Node.children, Option.getD_some, hChild]
    rfl

/-- `look` finds the nodes below the trees, which are numbered from `first` on. -/
theorem map_at?_preorderList : ∀ (first : Nat) (nodes : List Node) (look : List Nat → Option Node),
    (∀ i n, nodes[i]? = some n → ∀ below, look ((first + i) :: below) = n.at? below) →
      (placesFrom first nodes).map look = (preorderList nodes).map some
  | _, [], _, _ => rfl
  | first, n :: rest, look, hLook => by
    have hFirst : (n.places.map (first :: ·)).map look = n.preorder.map some := by
      rw [← map_at?_preorder n, List.map_map]
      exact List.map_congr_left fun below _ => hLook 0 n rfl below
    have hRest : (placesFrom (first + 1) rest).map look = (preorderList rest).map some := by
      apply map_at?_preorderList (first + 1) rest
      intro i other hOther below
      rw [Nat.add_right_comm]
      exact hLook (i + 1) other (by simpa using hOther) below
    rw [placesFrom, preorderList, List.map_append, List.map_append, hFirst, hRest]

end

/-- A walk lists the nodes at all places, in the order of the places. -/
theorem map_at?_places (n : Node) : n.places.map n.at? = n.walk.map some := by
  rw [walk_eq_preorder, map_at?_preorder]

/-! ## Objects that are filled in place -/

/-- The fields of a node in order, where the children's values are known. -/
def fields (n : Node) (values : Option (List Json)) : List (String × Json) :=
  [("kind", .str n.kind), ("start_byte", .int n.start), ("end_byte", .int n.stop)]
    ++ (values.map fun values => ("children", .arr values)).toList
    ++ (n.text.map fun text => ("text", .str text)).toList

theorem toJsonList_eq_map (nodes : List Node) : toJsonList nodes = nodes.map toJson := by
  induction nodes with
  | nil => rfl
  | cons n rest ih => rw [toJsonList, ih, List.map_cons]

/-- The value of a node by recursion, field by field. -/
theorem toJson_eq (n : Node) : n.toJson = .obj (n.fields (n.children.map (·.map toJson))) := by
  obtain ⟨kind, start, stop, children, text⟩ := n
  cases children with
  | none => cases text <;> rfl
  | some children =>
    cases text <;> rw [toJson, childrenField, toJsonList_eq_map] <;> rfl

namespace Draft

/-- The numbers of the objects that are built under a key. -/
def Held.numbers : Held → List Nat
  | .value _ => []
  | .drafts numbers => numbers

/-- The numbers of the objects that are built under the keys of an object. -/
def links (draft : Draft) : List Nat := draft.flatMap (·.2.numbers)

/-- An object is empty before it is filled, so its fields are in the order in which they are put. -/
theorem filled_nil (made : Nat) (n : Node) :
    Draft.filled made n [] =
      [("kind", .value (.str n.kind)), ("start_byte", .value (.int n.start)),
        ("end_byte", .value (.int n.stop))]
      ++ (n.children.map fun children =>
          ("children", .drafts (List.range' made children.length))).toList
      ++ (n.text.map fun text => ("text", .value (.str text))).toList := by
  cases hChildren : n.children <;> cases hText : n.text <;>
    simp [filled, put, put?, hChildren, hText]

theorem toJson_filled (value : Nat → Json) (made : Nat) (n : Node) :
    (Draft.filled made n []).toJson value = .obj (n.fields (n.children.map fun children =>
      (List.range' made children.length).map value)) := by
  rw [filled_nil]
  cases n.children <;> cases hText : n.text <;> simp [toJson, Held.toJson, fields, hText]

/-- The value of an object depends on those of the objects that it is linked to only. -/
theorem toJson_congr {draft : Draft} {value other : Nat → Json}
    (hSame : ∀ number ∈ draft.links, value number = other number) :
    draft.toJson value = draft.toJson other := by
  unfold toJson
  congr 1
  apply List.map_congr_left
  rintro ⟨key, held⟩ hField
  cases held with
  | value v => rfl
  | drafts numbers =>
    have hNumbers : numbers.map value = numbers.map other := by
      apply List.map_congr_left
      intro number hNumber
      exact hSame number (List.mem_flatMap.mpr ⟨_, hField, hNumber⟩)
    exact congrArg (fun items => (key, Json.arr items)) hNumbers

theorem links_filled (made : Nat) (n : Node) :
    (Draft.filled made n []).links = List.range' made n.childList.length := by
  rw [filled_nil, childList]
  cases n.children <;> cases n.text <;> simp [links, Held.numbers]

end Draft

theorem objectBuilder_computes : objectBuilder.Computes Draft.links toJson where
  congr _ _ _ hSame := Draft.toJson_congr hSame
  blank _ := rfl
  links_fill made n := by
    show (Draft.filled made n []).links ⊆ List.range' made n.childList.length
    rw [Draft.links_filled]
    exact List.Subset.refl _
  value_fill made n value hValues := by
    show (Draft.filled made n []).toJson value = n.toJson
    rw [Draft.toJson_filled, toJson_eq]
    have hChildren : n.children.map (fun children => (List.range' made children.length).map value)
        = n.children.map (·.map toJson) := by
      change (List.range' made n.childList.length).map value = n.childList.map toJson at hValues
      unfold childList at hValues
      cases hNode : n.children with
      | none => rfl
      | some children =>
        rw [hNode] at hValues
        exact congrArg some hValues
    rw [hChildren]

/-- Objects that are filled in place are those of the recursion. -/
theorem toObject_eq_toJson (n : Node) : n.toObject = n.toJson :=
  objectBuilder_computes.build_eq n

/-- A list of no children is told of, and text stands after children. -/
example : (node "k" 0 1 (some [node "l" 0 1 (some []) none]) (some "x")).toObject
    = .obj [("kind", .str "k"), ("start_byte", .int 0), ("end_byte", .int 1),
      ("children", .arr [.obj [("kind", .str "l"), ("start_byte", .int 0), ("end_byte", .int 1),
        ("children", .arr [])]]), ("text", .str "x")] := by
  cbv

/-! ## Nodes with objects that are alike -/

theorem mem_fields_iff {n : Node} {values : Option (List Json)} {key : String} {value : Json} :
    (key, value) ∈ n.fields values
      ↔ (key = "kind" ∧ value = .str n.kind) ∨ (key = "start_byte" ∧ value = .int n.start) ∨
        (key = "end_byte" ∧ value = .int n.stop) ∨
        (key = "children" ∧ ∃ items, values = some items ∧ value = .arr items) ∨
        (key = "text" ∧ ∃ text, n.text = some text ∧ value = .str text) := by
  cases values <;> cases hText : n.text <;> simp [fields, hText]

/-- Alike objects of nodes tell of the same kind, span and text, and of children that are alike. -/
theorem fields_of_alike {n other : Node} {values others : Option (List Json)}
    (h : Json.Alike (.obj (n.fields values)) (.obj (other.fields others))) :
    n.kind = other.kind ∧ n.start = other.start ∧ n.stop = other.stop ∧ n.text = other.text ∧
      Option.Rel (fun items found => Json.Alike (.arr items) (.arr found)) values others := by
  have hKind : some n.kind = some other.kind :=
    h.eq_under "kind" Json.Alike.str_inj (by simp [mem_fields_iff]) (by simp [mem_fields_iff])
  have hStart : some n.start = some other.start :=
    h.eq_under "start_byte" Json.Alike.int_inj (by simp [mem_fields_iff]) (by simp [mem_fields_iff])
  have hStop : some n.stop = some other.stop :=
    h.eq_under "end_byte" Json.Alike.int_inj (by simp [mem_fields_iff]) (by simp [mem_fields_iff])
  have hText : n.text = other.text :=
    h.eq_under "text" Json.Alike.str_inj (by simp [mem_fields_iff]) (by simp [mem_fields_iff])
  refine ⟨Option.some_inj.mp hKind, Option.some_inj.mp hStart, Option.some_inj.mp hStop, hText, ?_⟩
  exact h.under "children" (by simp [mem_fields_iff]) (by simp [mem_fields_iff])

mutual

/-- Nodes with objects that are alike are equal. -/
theorem eq_of_alike : ∀ {n other : Node}, Json.Alike n.toJson other.toJson → n = other
  | node kind start stop children text, node kind' start' stop' others text', h => by
    rw [toJson_eq, toJson_eq] at h
    obtain ⟨rfl, rfl, rfl, rfl, hChildren⟩ := fields_of_alike h
    have hSame : children = others := by
      cases children with
      | none =>
        cases others with
        | none => rfl
        | some others => cases hChildren
      | some nodes =>
        cases others with
        | none => cases hChildren
        | some others =>
          cases hChildren with
          | some hItems => rw [eq_of_alike_items hItems.items]
    rw [hSame]
    rfl

theorem eq_of_alike_items : ∀ {nodes others : List Node},
    List.Forall₂ Json.Alike (nodes.map toJson) (others.map toJson) → nodes = others
  | [], [], _ => rfl
  | n :: rest, other :: others, h => by
    obtain ⟨hFirst, hRest⟩ := List.forall₂_cons.mp h
    rw [eq_of_alike hFirst, eq_of_alike_items hRest]

end

/-- A walk of a node lists it and then the walks of its children in order, and comes to each place
of the tree once, in the order of the places.  The object that is filled in place is the value of
the recursion: it has the kind, the span, the objects of the children if there are any to tell of,
and the text if there is one, in this order.  Nodes with objects that are alike are equal. -/
theorem walk_toObject_faithful (n : Node) :
    n.walk = n :: n.childList.flatMap walk ∧
    (∃ places : List (List Nat), places.Pairwise (· < ·) ∧
      (∀ place, place ∈ places ↔ (n.at? place).isSome) ∧ n.walk.map some = places.map n.at?) ∧
    n.toObject = n.toJson ∧
    n.toObject = .obj (
      [("kind", .str n.kind), ("start_byte", .int n.start), ("end_byte", .int n.stop)]
      ++ (n.children.map fun children => ("children", .arr (children.map toObject))).toList
      ++ (n.text.map fun text => ("text", .str text)).toList) ∧
    ∀ other : Node, Json.Alike n.toObject other.toObject ↔ n = other := by
  have hObjects : toObject = toJson := funext toObject_eq_toJson
  have hWalked : n.walk.map some = n.places.map n.at? := (map_at?_places n).symm
  rw [hObjects]
  refine ⟨walk_eq n, ⟨n.places, pairwise_places n, fun place => mem_places_iff, hWalked⟩, rfl,
    ?_, ?_⟩
  · rw [toJson_eq, fields, Option.map_map]
    rfl
  · intro other
    constructor
    · exact eq_of_alike
    · rintro rfl
      exact Json.Alike.refl n.toJson

end TreeDump.Node
