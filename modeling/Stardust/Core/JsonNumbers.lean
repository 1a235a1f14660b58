import Stardust.Core.Json

/-!
# The numbers and the texts of a JSON value

Texts are replaced by a function and numbers by a partial one, which fails as soon as one of them
fails. The shape of the value stays, so what stands at a place afterwards is what stood there
before, replaced, as long as the keys stay.
-/

namespace Stardust.Core.Json

variable {σ τ υ ν μ κ ι : Type}

mutual

/-- Replace every text and every number, unless one of these has no image. -/
def traverse (t : σ → τ) (f : ν → Option μ) : Json σ ν → Option (Json τ μ)
  | null => some null
  | bool b => some (bool b)
  | num n => (f n).map num
  | str s => some (str (t s))
  | arr elems => (traverseElems t f elems).map arr
  | obj members => (traverseMembers t f members).map obj

/-- The elements of an array. -/
def traverseElems (t : σ → τ) (f : ν → Option μ) : List (Json σ ν) → Option (List (Json τ μ))
  | [] => some []
  | j :: rest => do
    let j ← traverse t f j
    let rest ← traverseElems t f rest
    return j :: rest

/-- The members of an object. -/
def traverseMembers (t : σ → τ) (f : ν → Option μ) :
    List (σ × Json σ ν) → Option (List (τ × Json τ μ))
  | [] => some []
  | (k, j) :: rest => do
    let j ← traverse t f j
    let rest ← traverseMembers t f rest
    return (t k, j) :: rest

end

mutual

/-- The numbers of a value, from left to right. -/
def numbers : Json σ ν → List ν
  | num n => [n]
  | arr elems => numbersElems elems
  | obj members => numbersMembers members
  | _ => []

/-- The numbers of an array. -/
def numbersElems : List (Json σ ν) → List ν
  | [] => []
  | j :: rest => numbers j ++ numbersElems rest

/-- The numbers of an object. -/
def numbersMembers : List (σ × Json σ ν) → List ν
  | [] => []
  | (_, j) :: rest => numbers j ++ numbersMembers rest

end

mutual

/-- The keys of all maps in a value. -/
def keys : Json σ ν → List σ
  | arr elems => keysElems elems
  | obj members => keysMembers members
  | _ => []

/-- The keys in the elements of a list. -/
def keysElems : List (Json σ ν) → List σ
  | [] => []
  | j :: rest => keys j ++ keysElems rest

/-- The keys of a map and those in its members. -/
def keysMembers : List (σ × Json σ ν) → List σ
  | [] => []
  | (k, j) :: rest => k :: (keys j ++ keysMembers rest)

end

/-- One step down into a list or a map. -/
inductive Step (σ : Type) where
  | index (i : Nat)
  | key (k : σ)

/-- The member with a key: the last one, as when a map is filled in order. -/
def member [DecidableEq σ] (k : σ) : List (σ × Json σ ν) → Option (Json σ ν)
  | [] => none
  | (l, j) :: rest => (member k rest).or (if l = k then some j else none)

/-- The value at the end of a path. -/
def lookup [DecidableEq σ] : List (Step σ) → Json σ ν → Option (Json σ ν)
  | [], j => some j
  | .index i :: path, arr elems => elems[i]?.bind (lookup path)
  | .key k :: path, obj members => (member k members).bind (lookup path)
  | _ :: _, _ => none

section Sequences

variable {t : σ → τ} {f : ν → Option μ}

private theorem traverseElems_cons_eq_some {j : Json σ ν} {rest : List (Json σ ν)}
    {images : List (Json τ μ)} :
    traverseElems t f (j :: rest) = some images ↔
      ∃ j' rest', traverse t f j = some j' ∧ traverseElems t f rest = some rest' ∧
        images = j' :: rest' := by
  simp only [traverseElems, Option.bind_eq_bind, Option.bind_eq_some_iff, Option.pure_def,
    Option.some.injEq, eq_comm (b := images), exists_and_left]

variable {images : List (τ × Json τ μ)}

private theorem traverseMembers_cons_eq_some {k : σ} {j : Json σ ν} {rest : List (σ × Json σ ν)} :
    traverseMembers t f ((k, j) :: rest) = some images ↔
      ∃ j' rest', traverse t f j = some j' ∧ traverseMembers t f rest = some rest' ∧
        images = (t k, j') :: rest' := by
  simp only [traverseMembers, Option.bind_eq_bind, Option.bind_eq_some_iff, Option.pure_def,
    Option.some.injEq, eq_comm (b := images), exists_and_left]

variable {elems : List (Json σ ν)}

/-- The elements of a list are replaced one by one. -/
theorem getElem?_of_traverseElems {t : σ → σ} {images : List (Json σ μ)}
    (h : traverseElems t f elems = some images) (hkeys : ∀ k ∈ keysElems elems, t k = k) (i : Nat) :
    Option.Rel (fun j j' => traverse t f j = some j' ∧ ∀ k ∈ keys j, t k = k)
      elems[i]? images[i]? := by
  induction elems generalizing images i with
  | nil =>
    obtain rfl := Option.some.inj h
    exact .none
  | cons j rest ih =>
    obtain ⟨j', rest', hj, hrest, rfl⟩ := traverseElems_cons_eq_some.mp h
    rw [keysElems, List.forall_mem_append] at hkeys
    cases i with
    | zero => exact .some ⟨hj, hkeys.1⟩
    | succ i => exact ih hrest hkeys.2 i

variable {members : List (σ × Json σ ν)}

/-- The members of a map are found again under keys that are not replaced. -/
theorem member_of_traverseMembers [DecidableEq σ] {t : σ → σ} {images : List (σ × Json σ μ)}
    (h : traverseMembers t f members = some images) (hkeys : ∀ k ∈ keysMembers members, t k = k)
    (k : σ) :
    Option.Rel (fun j j' => traverse t f j = some j' ∧ ∀ k ∈ keys j, t k = k)
      (member k members) (member k images) := by
  induction members generalizing images with
  | nil =>
    obtain rfl := Option.some.inj h
    exact .none
  | cons m rest ih =>
    obtain ⟨l, j⟩ := m
    obtain ⟨j', rest', hj, hrest, rfl⟩ := traverseMembers_cons_eq_some.mp h
    rw [keysMembers, List.forall_mem_cons, List.forall_mem_append] at hkeys
    obtain ⟨hl, hin, hbehind⟩ := hkeys
    have hbehind := ih hrest hbehind
    rw [member, member, hl]
    generalize member k rest = v, member k rest' = v' at hbehind
    cases hbehind with
    | some hv => exact .some hv
    | none =>
      by_cases hl : l = k
      · rw [if_pos hl, if_pos hl]
        exact .some ⟨hj, hin⟩
      · rw [if_neg hl, if_neg hl]
        exact .none

/-- Nesting does not change: the elements. -/
theorem depthElems_of_traverseElems {images : List (Json τ μ)}
    (ih : ∀ j ∈ elems, ∀ {j' : Json τ μ}, traverse t f j = some j' → j'.depth = j.depth)
    (h : traverseElems t f elems = some images) : depthElems images = depthElems elems := by
  induction elems generalizing images with
  | nil =>
    obtain rfl := Option.some.inj h
    rfl
  | cons j rest ihrest =>
    obtain ⟨j', rest', hj, hrest, rfl⟩ := traverseElems_cons_eq_some.mp h
    rw [depthElems, depthElems, ih j (List.mem_cons_self ..) hj,
      ihrest (fun k hk => ih k (List.mem_cons_of_mem _ hk)) hrest]

/-- Nesting does not change: the members. -/
theorem depthMembers_of_traverseMembers
    (ih : ∀ m ∈ members, ∀ {j' : Json τ μ}, traverse t f m.2 = some j' → j'.depth = m.2.depth)
    (h : traverseMembers t f members = some images) :
    depthMembers images = depthMembers members := by
  induction members generalizing images with
  | nil =>
    obtain rfl := Option.some.inj h
    rfl
  | cons m rest ihrest =>
    obtain ⟨k, j⟩ := m
    obtain ⟨j', rest', hj, hrest, rfl⟩ := traverseMembers_cons_eq_some.mp h
    rw [depthMembers, depthMembers, ih (k, j) (List.mem_cons_self ..) hj,
      ihrest (fun m hm => ih m (List.mem_cons_of_mem _ hm)) hrest]

variable (u : τ → υ) (v : μ → κ) (g : κ → Option ι)

/-- Two replacements in a row are one: the elements. -/
theorem traverseElems_mapElems {images : List (Json τ μ)}
    (ih : ∀ j ∈ elems, ∀ {j' : Json τ μ}, traverse t f j = some j' →
      traverse u g (map v j') =
        traverse (fun s => u (t s)) (fun n => (f n).bind fun m => g (v m)) j)
    (h : traverseElems t f elems = some images) :
    traverseElems u g (mapElems v images) =
      traverseElems (fun s => u (t s)) (fun n => (f n).bind fun m => g (v m)) elems := by
  induction elems generalizing images with
  | nil =>
    obtain rfl := Option.some.inj h
    rfl
  | cons j rest ihrest =>
    obtain ⟨j', rest', hj, hrest, rfl⟩ := traverseElems_cons_eq_some.mp h
    rw [mapElems, traverseElems, traverseElems, ih j (List.mem_cons_self ..) hj,
      ihrest (fun k hk => ih k (List.mem_cons_of_mem _ hk)) hrest]

/-- Two replacements in a row are one: the members. -/
theorem traverseMembers_mapMembers
    (ih : ∀ m ∈ members, ∀ {j' : Json τ μ}, traverse t f m.2 = some j' →
      traverse u g (map v j') =
        traverse (fun s => u (t s)) (fun n => (f n).bind fun m => g (v m)) m.2)
    (h : traverseMembers t f members = some images) :
    traverseMembers u g (mapMembers v images) =
      traverseMembers (fun s => u (t s)) (fun n => (f n).bind fun m => g (v m)) members := by
  induction members generalizing images with
  | nil =>
    obtain rfl := Option.some.inj h
    rfl
  | cons m rest ihrest =>
    obtain ⟨k, j⟩ := m
    obtain ⟨j', rest', hj, hrest, rfl⟩ := traverseMembers_cons_eq_some.mp h
    rw [mapMembers, traverseMembers, traverseMembers, ih (k, j) (List.mem_cons_self ..) hj,
      ihrest (fun m hm => ih m (List.mem_cons_of_mem _ hm)) hrest]

end Sequences

/-- A value has an image when all its numbers have one. -/
theorem isSome_traverse_iff (t : σ → τ) (f : ν → Option μ) (j : Json σ ν) :
    (traverse t f j).isSome ↔ ∀ n ∈ numbers j, (f n).isSome := by
  induction j using Json.induct with
  | null | bool | num | str => simp [traverse, numbers]
  | arr elems ih =>
    rw [traverse, Option.isSome_map, numbers]
    induction elems with
    | nil => simp [traverseElems, numbersElems]
    | cons j rest ihrest =>
      have hj := ih j (List.mem_cons_self ..)
      have hrest := ihrest fun k hk => ih k (List.mem_cons_of_mem _ hk)
      rw [numbersElems, List.forall_mem_append, ← hj, ← hrest, traverseElems]
      cases traverse t f j <;> cases traverseElems t f rest <;> simp
  | obj members ih =>
    rw [traverse, Option.isSome_map, numbers]
    induction members with
    | nil => simp [traverseMembers, numbersMembers]
    | cons m rest ihrest =>
      obtain ⟨k, j⟩ := m
      have hj := ih (k, j) (List.mem_cons_self ..)
      have hrest := ihrest fun m hm => ih m (List.mem_cons_of_mem _ hm)
      rw [numbersMembers, List.forall_mem_append, ← hj, ← hrest, traverseMembers]
      cases traverse t f j <;> cases traverseMembers t f rest <;> simp

/-- Nesting does not change. -/
theorem depth_of_traverse {t : σ → τ} {f : ν → Option μ} {j : Json σ ν} {j' : Json τ μ}
    (h : traverse t f j = some j') : j'.depth = j.depth := by
  induction j using Json.induct generalizing j' with
  | null | bool | str =>
    obtain rfl := Option.some.inj h
    rfl
  | num n =>
    obtain ⟨m, -, rfl⟩ := Option.map_eq_some_iff.mp h
    rfl
  | arr elems ih =>
    obtain ⟨images, himages, rfl⟩ := Option.map_eq_some_iff.mp h
    rw [depth, depth, depthElems_of_traverseElems ih himages]
  | obj members ih =>
    obtain ⟨images, himages, rfl⟩ := Option.map_eq_some_iff.mp h
    rw [depth, depth, depthMembers_of_traverseMembers ih himages]

/-- Two replacements in a row are one replacement. -/
theorem traverse_map_of_traverse {t : σ → τ} {f : ν → Option μ} (u : τ → υ) (v : μ → κ)
    (g : κ → Option ι) {j : Json σ ν} {j' : Json τ μ} (h : traverse t f j = some j') :
    traverse u g (map v j') =
        traverse (fun s => u (t s)) (fun n => (f n).bind fun m => g (v m)) j := by
  induction j using Json.induct generalizing j' with
  | null | bool | str =>
    obtain rfl := Option.some.inj h
    rfl
  | num n =>
    obtain ⟨m, hm, rfl⟩ := Option.map_eq_some_iff.mp h
    rw [map, traverse, traverse, hm]
    rfl
  | arr elems ih =>
    obtain ⟨images, himages, rfl⟩ := Option.map_eq_some_iff.mp h
    rw [map, traverse, traverse, traverseElems_mapElems u v g ih himages]
  | obj members ih =>
    obtain ⟨images, himages, rfl⟩ := Option.map_eq_some_iff.mp h
    rw [map, traverse, traverse, traverseMembers_mapMembers u v g ih himages]

/-- What stands at a place is what stood there, replaced, when no key is. -/
theorem lookup_of_traverse [DecidableEq σ] {t : σ → σ} {f : ν → Option μ} {j v : Json σ ν}
    {j' : Json σ μ} {path : List (Step σ)} (h : traverse t f j = some j')
    (hkeys : ∀ k ∈ keys j, t k = k) (hv : lookup path j = some v) :
    ∃ v', traverse t f v = some v' ∧ lookup path j' = some v' := by
  induction path generalizing j j' with
  | nil =>
    obtain rfl := Option.some.inj hv
    exact ⟨j', h, rfl⟩
  | cons step path ih =>
    cases step with
    | index i =>
      cases j with
      | arr elems =>
        obtain ⟨images, himages, rfl⟩ := Option.map_eq_some_iff.mp h
        have hstep := getElem?_of_traverseElems himages hkeys i
        rw [lookup] at hv ⊢
        generalize elems[i]? = u, images[i]? = u' at hstep hv ⊢
        cases hstep with
        | some hk => exact ih hk.1 hk.2 hv
        | none => cases hv
      | _ => cases hv
    | key k =>
      cases j with
      | obj members =>
        obtain ⟨images, himages, rfl⟩ := Option.map_eq_some_iff.mp h
        have hstep := member_of_traverseMembers himages hkeys k
        rw [lookup] at hv ⊢
        generalize member k members = u, member k images = u' at hstep hv ⊢
        cases hstep with
        | some hk => exact ih hk.1 hk.2 hv
        | none => cases hv
      | _ => cases hv

end Stardust.Core.Json
