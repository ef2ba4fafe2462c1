import Mathlib.Data.List.Nodup

/-!
# Maps in insertion order, keyed by a field

`KeyedMap key` is a list of values no two of which have the same `key`: a map whose keys are read off its values.
Storing a value (`set`) replaces the one with its key in place, or appends it; so iteration is in the order of first
insertion. Membership after each operation is `mem_set`, `mem_delete`, `mem_mapValues`.

`Owned holds m`: no resource is held by two values of `m`. Storing a value keeps this as soon as nobody else holds what
the new value holds (`Owned.set`).
-/

universe u v w

/-- Values in insertion order, one for each key. -/
structure KeyedMap {α : Type u} {κ : Type v} (key : α → κ) where
  values : List α
  nodup : (values.map key).Nodup

namespace KeyedMap

variable {α : Type u} {κ : Type v} {key : α → κ}

instance : Membership α (KeyedMap key) := ⟨fun m v => v ∈ m.values⟩

theorem mem_def {m : KeyedMap key} {v : α} : v ∈ m ↔ v ∈ m.values := Iff.rfl

instance (m : KeyedMap key) (p : α → Prop) [DecidablePred p] : Decidable (∀ v ∈ m, p v) :=
  inferInstanceAs (Decidable (∀ v ∈ m.values, p v))

instance (m : KeyedMap key) (p : α → Prop) [DecidablePred p] : Decidable (∃ v ∈ m, p v) :=
  inferInstanceAs (Decidable (∃ v ∈ m.values, p v))

/-- The empty map. -/
def empty : KeyedMap key := ⟨[], by simp⟩

@[simp] theorem not_mem_empty (v : α) : v ∉ (empty : KeyedMap key) := by simp [mem_def, empty]

theorem eq_of_key {m : KeyedMap key} {a b : α} (ha : a ∈ m) (hb : b ∈ m) (h : key a = key b) : a = b :=
  List.inj_on_of_nodup_map m.nodup ha hb h

/-! ## Rewriting in place -/

theorem map_key_map {f : α → α} (hf : ∀ v, key (f v) = key v) (l : List α) : (l.map f).map key = l.map key := by
  simp [hf]

/-- Rewrite every value in place, keeping its key. -/
def mapValues (m : KeyedMap key) (f : α → α) (hf : ∀ v, key (f v) = key v) : KeyedMap key :=
  ⟨m.values.map f, by rw [map_key_map hf]; exact m.nodup⟩

theorem mem_mapValues {m : KeyedMap key} {f : α → α} {hf : ∀ v, key (f v) = key v} {w : α} :
    w ∈ m.mapValues f hf ↔ ∃ v ∈ m, f v = w := by
  simp [mapValues, mem_def]

/-- Rewriting in place relates every value to the new one. -/
theorem forall₂_mapValues {R : α → α → Prop} {m : KeyedMap key} {f : α → α} (hf : ∀ v, key (f v) = key v)
    (hr : ∀ v ∈ m, R v (f v)) : List.Forall₂ R m.values (m.mapValues f hf).values :=
  List.forall₂_map_right_iff.2 (List.forall₂_same.2 hr)

/-- Keep the values with property `p`. -/
def filter (m : KeyedMap key) (p : α → Bool) : KeyedMap key :=
  ⟨m.values.filter p, (List.Sublist.map key List.filter_sublist).nodup m.nodup⟩

theorem mem_filter {m : KeyedMap key} {p : α → Bool} {v : α} : v ∈ m.filter p ↔ v ∈ m ∧ p v = true := by
  simp [filter, mem_def]

/-! ## Exclusive ownership of resources -/

section Ownership

variable {ρ : Type w} {holds : α → ρ → Prop}

/-- No resource is held by two values. -/
def Owned (holds : α → ρ → Prop) (m : KeyedMap key) : Prop :=
  ∀ a ∈ m, ∀ b ∈ m, ∀ r, holds a r → holds b r → a = b

theorem Owned.empty : Owned holds (KeyedMap.empty : KeyedMap key) := fun a ha => absurd ha (not_mem_empty a)

/-- What a value of the map holds, nobody else holds. -/
theorem Owned.free {m : KeyedMap key} (h : Owned holds m) {e : α} (he : e ∈ m) {r : ρ} (hr : holds e r) :
    ∀ w ∈ m, key w ≠ key e → ¬holds w r :=
  fun w hw hk hwr => hk (congrArg key (h w hw e he r hwr hr))

/-- Rewriting in place keeps ownership when no rewritten value holds more. -/
theorem Owned.mapValues {m : KeyedMap key} {f : α → α} (h : Owned holds m) (hf : ∀ v, key (f v) = key v)
    (hle : ∀ v r, holds (f v) r → holds v r) : Owned holds (m.mapValues f hf) := by
  intro a ha b hb r har hbr
  obtain ⟨v, hv, rfl⟩ := mem_mapValues.1 ha
  obtain ⟨w, hw, rfl⟩ := mem_mapValues.1 hb
  rw [h v hv w hw r (hle v r har) (hle w r hbr)]

end Ownership

variable [DecidableEq κ]

/-! ## Lookup -/

/-- The value with key `k`. -/
def get? (m : KeyedMap key) (k : κ) : Option α := m.values.find? (fun v => key v = k)

theorem get?_eq_some {m : KeyedMap key} {k : κ} {v : α} : m.get? k = some v ↔ v ∈ m ∧ key v = k := by
  constructor
  · intro h
    exact ⟨List.mem_of_find?_eq_some h, by simpa using List.find?_some h⟩
  · rintro ⟨hv, rfl⟩
    cases hf : m.get? (key v) with
    | none =>
      have hn := List.find?_eq_none.1 hf v hv
      simp at hn
    | some w =>
      have hw : key w = key v := by simpa using List.find?_some hf
      rw [eq_of_key (List.mem_of_find?_eq_some hf) hv hw]

theorem get?_eq_none {m : KeyedMap key} {k : κ} : m.get? k = none ↔ ∀ v ∈ m, key v ≠ k := by
  simp [get?, List.find?_eq_none, mem_def]

theorem get?_self {m : KeyedMap key} {v : α} (hv : v ∈ m) : m.get? (key v) = some v := get?_eq_some.2 ⟨hv, rfl⟩

theorem get?_mapValues {m : KeyedMap key} {f : α → α} {hf : ∀ v, key (f v) = key v} {k : κ} :
    (m.mapValues f hf).get? k = (m.get? k).map f := by
  simp only [get?, mapValues, List.find?_map]
  congr 2
  funext v
  simp [hf]

/-- Of what is derived from the values, only the part derived from the value with key `k` has property `p`. -/
theorem filterMap_of_key {β : Type w} {m : KeyedMap key} {k : κ} {g : α → Option β} {p : β → Bool}
    (h : ∀ v b, g v = some b → (p b = true ↔ key v = k)) :
    (m.values.filterMap g).filter p = ((m.get? k).bind g).toList := by
  have hlist : ∀ l : List α, (l.map key).Nodup →
      (l.filterMap g).filter p = ((l.find? fun v => key v = k).bind g).toList := by
    intro l hl
    induction l with
    | nil => rfl
    | cons v l ih =>
      rw [List.map_cons, List.nodup_cons] at hl
      have hrest := ih hl.2
      by_cases hk : key v = k
      · -- no other value has the key
        have hnone : (l.find? fun v => key v = k) = none := by
          refine List.find?_eq_none.2 fun w hw hkw => hl.1 ?_
          rw [hk, ← of_decide_eq_true hkw]
          exact List.mem_map_of_mem hw
        rw [hnone] at hrest
        cases hg : g v with
        | none => simpa [hk, hg] using hrest
        | some b =>
          have hp : p b = true := (h v b hg).2 hk
          simpa [hk, hg, hp] using hrest
      · cases hg : g v with
        | none => simpa [hk, hg] using hrest
        | some b =>
          have hp : p b = false := Bool.eq_false_iff.2 fun hp => hk ((h v b hg).1 hp)
          simpa [hk, hg, hp] using hrest
  exact hlist m.values m.nodup

/-! ## Storing -/

/-- Replace the value with the key of `v`, or append `v`. -/
def put (key : α → κ) (v : α) : List α → List α
  | [] => [v]
  | w :: ws => if key w = key v then v :: ws else w :: put key v ws

/-- What `put` leaves in a list without duplicate keys. -/
theorem mem_put {v w : α} : ∀ {l : List α}, (l.map key).Nodup → (w ∈ put key v l ↔ w = v ∨ (w ∈ l ∧ key w ≠ key v))
  | [], _ => by simp [put]
  | x :: l, h => by
    simp only [List.map_cons, List.nodup_cons] at h
    by_cases hx : key x = key v
    · have hl : ∀ y ∈ l, key y ≠ key v := fun y hy e => h.1 (List.mem_map.2 ⟨y, hy, e.trans hx.symm⟩)
      simp only [put, hx, ↓reduceIte, List.mem_cons]
      constructor
      · rintro (rfl | hw)
        · exact Or.inl rfl
        · exact Or.inr ⟨Or.inr hw, hl w hw⟩
      · rintro (rfl | ⟨rfl | hw, hne⟩)
        · exact Or.inl rfl
        · exact absurd hx hne
        · exact Or.inr hw
    · simp only [put, hx, ↓reduceIte, List.mem_cons, mem_put h.2]
      constructor
      · rintro (rfl | rfl | ⟨hw, hne⟩)
        · exact Or.inr ⟨Or.inl rfl, hx⟩
        · exact Or.inl rfl
        · exact Or.inr ⟨Or.inr hw, hne⟩
      · rintro (rfl | ⟨rfl | hw, hne⟩)
        · exact Or.inr (Or.inl rfl)
        · exact Or.inl rfl
        · exact Or.inr (Or.inr ⟨hw, hne⟩)

theorem nodup_put {v : α} : ∀ {l : List α}, (l.map key).Nodup → ((put key v l).map key).Nodup
  | [], _ => by simp [put]
  | x :: l, h => by
    have h' := h
    simp only [List.map_cons, List.nodup_cons] at h'
    by_cases hx : key x = key v
    · simpa [put, hx] using h
    · simp only [put, hx, ↓reduceIte, List.map_cons, List.nodup_cons]
      refine ⟨?_, nodup_put h'.2⟩
      intro hm
      obtain ⟨y, hy, hyx⟩ := List.mem_map.1 hm
      rcases (mem_put h'.2).1 hy with rfl | ⟨hy, _⟩
      · exact hx hyx.symm
      · exact h'.1 (List.mem_map.2 ⟨y, hy, hyx⟩)

/-- Store a value under its key. -/
def set (m : KeyedMap key) (v : α) : KeyedMap key := ⟨put key v m.values, nodup_put m.nodup⟩

theorem mem_set {m : KeyedMap key} {v w : α} : w ∈ m.set v ↔ w = v ∨ (w ∈ m ∧ key w ≠ key v) := mem_put m.nodup

theorem mem_set_self (m : KeyedMap key) (v : α) : v ∈ m.set v := mem_set.2 (Or.inl rfl)

theorem mem_set_of_ne {m : KeyedMap key} {v w : α} (hw : w ∈ m) (h : key w ≠ key v) : w ∈ m.set v :=
  mem_set.2 (Or.inr ⟨hw, h⟩)

/-- The stored value is found under its key. -/
@[simp] theorem get?_set_self (m : KeyedMap key) (v : α) : (m.set v).get? (key v) = some v :=
  get?_eq_some.2 ⟨mem_set_self m v, rfl⟩

/-- Storing changes no other key. -/
theorem get?_set_of_ne {m : KeyedMap key} {v : α} {k : κ} (h : k ≠ key v) : (m.set v).get? k = m.get? k := by
  cases hm : m.get? k with
  | none =>
    refine get?_eq_none.2 fun w hw e => ?_
    rcases mem_set.1 hw with rfl | ⟨hw, _⟩
    · exact h e.symm
    · exact get?_eq_none.1 hm w hw e
  | some w =>
    obtain ⟨hw, rfl⟩ := get?_eq_some.1 hm
    exact get?_self (mem_set_of_ne hw h)

/-! ## The order of the values -/

/-- A value under a new key goes to the end. -/
theorem values_set_of_fresh {m : KeyedMap key} {v : α} (h : ∀ w ∈ m, key w ≠ key v) :
    (m.set v).values = m.values ++ [v] := by
  have hput : ∀ l : List α, (∀ w ∈ l, key w ≠ key v) → put key v l = l ++ [v] := by
    intro l hl
    induction l with
    | nil => rfl
    | cons w l ih =>
      simp only [put, hl w List.mem_cons_self, ↓reduceIte, ih fun x hx => hl x (List.mem_cons_of_mem _ hx),
        List.cons_append]
  exact hput m.values h

/-- The map of a list of values, stored one after the other. -/
def ofList (key : α → κ) (l : List α) : KeyedMap key := l.foldl set empty

theorem mem_of_mem_ofList {l : List α} {v : α} (h : v ∈ ofList key l) : v ∈ l := by
  have hfold : ∀ (l : List α) (acc : KeyedMap key), v ∈ l.foldl set acc → v ∈ acc ∨ v ∈ l := by
    intro l
    induction l with
    | nil => exact fun acc hm => .inl hm
    | cons w l ih =>
      intro acc hm
      rcases ih (acc.set w) hm with hm | hm
      · rcases mem_set.1 hm with rfl | ⟨hm, _⟩
        · exact .inr List.mem_cons_self
        · exact .inl hm
      · exact .inr (List.mem_cons_of_mem _ hm)
  rcases hfold l empty h with hm | hm
  · exact absurd hm (not_mem_empty v)
  · exact hm

/-- The values of a map, stored one after the other, give the map. -/
theorem ofList_values (m : KeyedMap key) : ofList key m.values = m := by
  have hfold : ∀ (l : List α) (acc : KeyedMap key), ((acc.values ++ l).map key).Nodup →
      (l.foldl set acc).values = acc.values ++ l := by
    intro l
    induction l with
    | nil => intro acc _; rw [List.foldl_nil, List.append_nil]
    | cons v l ih =>
      intro acc hnodup
      have hfresh : ∀ w ∈ acc, key w ≠ key v := by
        intro w hw hk
        rw [List.map_append, List.map_cons] at hnodup
        exact List.disjoint_of_nodup_append hnodup (List.mem_map_of_mem hw) (hk ▸ List.mem_cons_self)
      have hset : (acc.set v).values ++ l = acc.values ++ v :: l := by
        rw [values_set_of_fresh hfresh, List.append_assoc, List.singleton_append]
      rw [List.foldl_cons, ih (acc.set v) (hset ▸ hnodup), hset]
  obtain ⟨values, hnodup⟩ := m
  have hvalues := hfold values empty hnodup
  simp only [empty, List.nil_append] at hvalues
  unfold ofList
  cases hm : values.foldl set (empty : KeyedMap key) with
  | mk values' hnodup' =>
    have hsame : values' = values := by
      have := congrArg KeyedMap.values hm
      exact this.symm.trans hvalues
    subst hsame
    rfl

/-- A value under a known key takes the place of the old one. -/
theorem forall₂_set {R : α → α → Prop} (hrefl : ∀ v, R v v) {m : KeyedMap key} {v w : α} (hv : v ∈ m)
    (hk : key w = key v) (hr : R v w) : List.Forall₂ R m.values (m.set w).values := by
  have hput : ∀ l : List α, (∀ x ∈ l, key x = key v → x = v) → v ∈ l → List.Forall₂ R l (put key w l) := by
    intro l huniq hmem
    induction l with
    | nil => cases hmem
    | cons x l ih =>
      by_cases hx : key x = key w
      · simp only [put, hx, ↓reduceIte]
        rw [huniq x List.mem_cons_self (hx.trans hk)]
        exact .cons hr (List.forall₂_same.2 fun y _ => hrefl y)
      · simp only [put, hx, ↓reduceIte]
        refine .cons (hrefl x) (ih (fun y hy => huniq y (List.mem_cons_of_mem _ hy)) ?_)
        rcases List.mem_cons.1 hmem with rfl | hm
        · exact absurd hk.symm hx
        · exact hm
  exact hput m.values (fun x hx he => eq_of_key hx hv he) hv

/-! ## Deleting -/

/-- Remove the value with key `k`. -/
def delete (m : KeyedMap key) (k : κ) : KeyedMap key :=
  ⟨m.values.filter (fun v => key v ≠ k), (List.Sublist.map key List.filter_sublist).nodup m.nodup⟩

theorem mem_delete {m : KeyedMap key} {k : κ} {v : α} : v ∈ m.delete k ↔ v ∈ m ∧ key v ≠ k := by
  simp [delete, mem_def]

@[simp] theorem get?_delete_self (m : KeyedMap key) (k : κ) : (m.delete k).get? k = none :=
  get?_eq_none.2 fun _ hv => (mem_delete.1 hv).2

theorem get?_delete_of_ne {m : KeyedMap key} {k k' : κ} (h : k' ≠ k) : (m.delete k).get? k' = m.get? k' := by
  refine Option.ext fun v => ?_
  rw [get?_eq_some, get?_eq_some, mem_delete]
  exact ⟨fun hv => ⟨hv.1.1, hv.2⟩, fun hv => ⟨⟨hv.1, fun hk => h (hv.2.symm.trans hk)⟩, hv.2⟩⟩

/-! ## Storing what nobody else holds -/

section Ownership

variable {ρ : Type w} {holds : α → ρ → Prop}

/-- A value that takes only resources nobody else holds can be stored. -/
theorem Owned.set {m : KeyedMap key} {v : α} (h : Owned holds m)
    (hv : ∀ r, holds v r → ∀ w ∈ m, key w ≠ key v → ¬holds w r) : Owned holds (m.set v) := by
  intro a ha b hb r har hbr
  rcases mem_set.1 ha with hav | ⟨ha, hka⟩ <;> rcases mem_set.1 hb with hbv | ⟨hb, hkb⟩
  · rw [hav, hbv]
  · exact absurd hbr (hv r (hav ▸ har) b hb hkb)
  · exact absurd har (hv r (hbv ▸ hbr) a ha hka)
  · exact h a ha b hb r har hbr

end Ownership

end KeyedMap
