import Fmp4Packager.Format.FragmentReader

/-!
# Trees of boxes

A container box holds some fields of its own and then child boxes up to its end.
Which types are containers, and how long their fields are, is given by a table.  A
tree that follows the table is read back from its bytes.
-/

namespace IsoBox

def FourCC.ofBytes (bytes : List UInt8) : Option FourCC :=
  match bytes.map fun byte ↦ Char.ofNat byte.toNat with
  | [c0, c1, c2, c3] => some ⟨c0, c1, c2, c3⟩
  | _ => none

inductive BoxTree where
  | leaf (type : FourCC) (payload : List UInt8)
  | node (type : FourCC) (fields : List UInt8) (children : List BoxTree)

namespace BoxTree

def type : BoxTree → FourCC
  | leaf type _ => type
  | node type _ _ => type

/-- What a box says itself: the payload, or the fields of a container. -/
def data : BoxTree → List UInt8
  | leaf _ payload => payload
  | node _ fields _ => fields

def children : BoxTree → List BoxTree
  | leaf _ _ => []
  | node _ _ children => children

/-- The first children of the types along a path. -/
def find : List FourCC → BoxTree → Option BoxTree
  | [], t => some t
  | type :: path, t => do
      let child ← t.children.find? fun child ↦ child.type = type
      find path child

theorem find_append (path path' : List FourCC) (t : BoxTree) :
    t.find (path ++ path') = (t.find path).bind (find path') := by
  induction path generalizing t with
  | nil => rfl
  | cons type path ih =>
      simp only [List.cons_append, find, Option.bind_eq_bind, Option.bind_assoc, ih]

def childrenOfType (t : BoxTree) (type : FourCC) : List BoxTree :=
  t.children.filter fun child ↦ child.type = type

end BoxTree

mutual

def BoxTree.body : BoxTree → List UInt8
  | .leaf _ payload => payload
  | .node _ fields children => fields ++ encodeTrees children

def encodeTrees : List BoxTree → List UInt8
  | [] => []
  | t :: ts => box t.type t.body ++ encodeTrees ts

end

section Reading

variable {fieldsOf : FourCC → Option ℕ}

/-- A box as a tree, with `readChildren` for the bytes behind the fields of a
container. -/
def readTree (fieldsOf : FourCC → Option ℕ)
    (readChildren : List UInt8 → Option (List BoxTree)) (b : RawBox) : Option BoxTree := do
  let type ← FourCC.ofBytes b.type
  match fieldsOf type with
  | none => some (.leaf type b.payload)
  | some length => do
      let (fields, rest) ← readBytes length b.payload
      let children ← readChildren rest
      some (.node type fields children)

/-- Split `bytes` into boxes, and every container into its fields and its children.
The fuel bounds the depth. -/
def readTreesAux (fieldsOf : FourCC → Option ℕ) : ℕ → List UInt8 → Option (List BoxTree)
  | 0, bytes => if bytes = [] then some [] else none
  | fuel + 1, bytes => do
      let boxes ← readBoxes 0 bytes
      boxes.mapM (readTree fieldsOf (readTreesAux fieldsOf fuel))

/-- The trees that tile `bytes`, every container tiled by its children. -/
def readTrees (fieldsOf : FourCC → Option ℕ) (bytes : List UInt8) : Option (List BoxTree) :=
  readTreesAux fieldsOf bytes.length bytes

/-- The containers of the table, and they alone, have children. -/
inductive BoxTree.Follows (fieldsOf : FourCC → Option ℕ) : BoxTree → Prop
  | leaf {type : FourCC} {payload : List UInt8} (htype : FourCC.ofBytes type.bytes = some type)
      (hleaf : fieldsOf type = none) : Follows fieldsOf (.leaf type payload)
  | node {type : FourCC} {fields : List UInt8} {children : List BoxTree}
      (htype : FourCC.ofBytes type.bytes = some type)
      (hnode : fieldsOf type = some fields.length)
      (hchildren : ∀ child ∈ children, Follows fieldsOf child) :
      Follows fieldsOf (.node type fields children)

theorem encodeTrees_eq_flatMap (ts : List BoxTree) :
    encodeTrees ts = (ts.map fun t ↦ (t.type, t.body)).flatMap fun b ↦ box b.1 b.2 := by
  induction ts with
  | nil => rw [encodeTrees]; rfl
  | cons t ts ih => rw [encodeTrees, ih]; rfl

theorem encodeTrees_append (xs ys : List BoxTree) :
    encodeTrees (xs ++ ys) = encodeTrees xs ++ encodeTrees ys := by
  rw [encodeTrees_eq_flatMap, List.map_append, List.flatMap_append, ← encodeTrees_eq_flatMap,
    ← encodeTrees_eq_flatMap]

theorem length_body_le {t : BoxTree} {ts : List BoxTree} (ht : t ∈ ts) :
    8 + t.body.length ≤ (encodeTrees ts).length := by
  rw [encodeTrees_eq_flatMap]
  exact length_le_length_flatMap_box (b := (t.type, t.body)) (List.mem_map_of_mem ht)

theorem readTreesAux_encodeTrees (fuel : ℕ) {ts : List BoxTree}
    (hts : ∀ t ∈ ts, t.Follows fieldsOf) (hfuel : (encodeTrees ts).length ≤ fuel)
    (hsize : (encodeTrees ts).length < 2 ^ 32) :
    readTreesAux fieldsOf fuel (encodeTrees ts) = some ts := by
  induction fuel generalizing ts with
  | zero =>
      cases ts with
      | nil => rfl
      | cons t ts =>
          have := length_body_le (List.mem_cons_self : t ∈ t :: ts)
          omega
  | succ fuel ih =>
      have hboxes : readBoxes 0 (encodeTrees ts) =
          some (place 0 (ts.map fun t ↦ (t.type, t.body))) := by
        rw [encodeTrees_eq_flatMap]
        apply readBoxes_flatMap
        intro b hb
        obtain ⟨t, ht, rfl⟩ := List.mem_map.mp hb
        exact (length_body_le ht).trans_lt hsize
      rw [readTreesAux, hboxes, Option.bind_eq_bind, Option.bind_some]
      have hread : (place 0 (ts.map fun t ↦ (t.type, t.body))).mapM
          (readTree fieldsOf (readTreesAux fieldsOf fuel)) = some (ts.map fun t ↦ t) := by
        apply mapM_place
        intro start t ht
        have hbody := length_body_le ht
        cases hts t ht with
        | leaf htype hleaf => simp [readTree, BoxTree.type, BoxTree.body, htype, hleaf]
        | @node type fields children htype hnode hchildren =>
            rw [BoxTree.body, List.length_append] at hbody
            have hrest := ih hchildren (by omega) (by omega)
            simp [readTree, BoxTree.type, BoxTree.body, htype, hnode, readBytes_append _ rfl,
              hrest]
      rwa [List.map_id'] at hread

theorem readTrees_encodeTrees {ts : List BoxTree} (hts : ∀ t ∈ ts, t.Follows fieldsOf)
    (hsize : (encodeTrees ts).length < 2 ^ 32) :
    readTrees fieldsOf (encodeTrees ts) = some ts :=
  readTreesAux_encodeTrees _ hts le_rfl hsize

end Reading

end IsoBox
