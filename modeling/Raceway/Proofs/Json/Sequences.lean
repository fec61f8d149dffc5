import Raceway.Json.Sequence
import Raceway.Proofs.Json.Scalars
/-!
# Lists read back

The items of a list stand one after another with commas between them.  If each of them is read back
where it stands, so is the list, whatever its length.
-/

namespace Raceway.Json

variable {α : Type}

/-! ## Items in a text -/

/-- What stands in front of an item. -/
def separator (first : Bool) : List Char :=
  if first then [] else [',']

/-- Items as they stand in a list, or behind its first items. -/
def itemsText (first : Bool) : List (List Char) → List Char
  | [] => []
  | item :: items => separator first ++ (item ++ itemsText false items)

theorem commaSeparated_cons (item : List Char) (items : List (List Char)) :
    commaSeparated (item :: items) = item ++ itemsText false items := by
  induction items generalizing item with
  | nil => exact (List.append_nil item).symm
  | cons next items ih =>
      rw [commaSeparated, ih]
      · rfl
      · exact List.cons_ne_nil next items

theorem itemsText_true (items : List (List Char)) :
    itemsText true items = commaSeparated items := by
  cases items with
  | nil => rfl
  | cons item items => exact (commaSeparated_cons item items).symm

theorem delimited_itemsText {close : Char} (hclose : close = ']' ∨ close = '\x7d')
    (items : List (List Char)) (rest : List Char) :
    Delimited (itemsText false items ++ close :: rest) := by
  cases items with
  | nil => simpa [itemsText, Delimited] using Or.inr hclose
  | cons item items => simp [itemsText, separator, Delimited]

section

variable {text rest : List Char} {item : Reader α} {good : Bool} {a : α}

theorem nextItem_solid (first : Bool) (h : Solid text) (rest : List Char) :
    ∃ hle, nextItem first (separator first ++ (text ++ rest)) = .ok ⟨true, text ++ rest, hle⟩ := by
  obtain ⟨c, more, hskip, hclose⟩ := h
  have hskip' : skipBlank (text ++ rest) = c :: (more ++ rest) := by
    rw [skipBlank_append (by simp [hskip]), hskip, List.cons_append]
  have hclose' : (c == ']') = false := by simpa using hclose
  obtain ⟨_, hnext⟩ := exists_nextChar hskip'
  cases first with
  | true =>
      refine ⟨Nat.le.refl, ?_⟩
      simp [nextItem, separator, hnext, hclose', Passed.missing]
  | false =>
      refine ⟨Nat.le_succ _, ?_⟩
      have hcomma : isBlank ',' = false := rfl
      simp [nextItem, separator, nextChar_cons hcomma, hnext, hclose']

theorem nextItem_bracket (first : Bool) (rest : List Char) :
    ∃ hle, nextItem first (']' :: rest) = .ok ⟨false, ']' :: rest, hle⟩ :=
  ⟨Nat.le.refl, rfl⟩

theorem readListEnd_bracket (rest : List Char) : Yields true () rest (readListEnd (']' :: rest)) :=
  ⟨rfl, rfl, rfl⟩

/-! ## Lists of any length -/

theorem yields_readItems {write : α → List Char} {good : α → Bool} {xs : List α}
    (hitem : ∀ x ∈ xs, Recovers item (write x) (good x) x) (hsolid : ∀ x ∈ xs, Solid (write x))
    (first : Bool) (rest : List Char) :
    Yields (xs.all good) xs rest
      (readItems item first (itemsText first (xs.map write) ++ ']' :: rest)) := by
  induction xs generalizing first with
  | nil =>
      obtain ⟨hle, hnext⟩ := nextItem_bracket first rest
      rw [List.map_nil, itemsText, List.nil_append, readItems, hnext]
      exact (readListEnd_bracket rest).map fun _ => ⟨rfl, rfl⟩
  | cons x xs ih =>
      rw [List.forall_mem_cons] at hitem hsolid
      obtain ⟨hle, hnext⟩ := nextItem_solid first hsolid.1
        (itemsText false (xs.map write) ++ ']' :: rest)
      rw [List.map_cons, itemsText, List.append_assoc, List.append_assoc, readItems, hnext,
        List.all_cons]
      refine (hitem.1 _ (delimited_itemsText (Or.inl rfl) _ rest)).bind fun _ => ?_
      exact (ih hitem.2 hsolid.2 false).map fun _ => ⟨rfl, rfl⟩

/-- A list is read back if all of its items are. -/
theorem recovers_list [NumberText] {write : α → List Char} {good : α → Bool} {xs : List α}
    (hitem : ∀ x ∈ xs, Recovers item (write x) (good x) x) (hsolid : ∀ x ∈ xs, Solid (write x)) :
    Recovers (readList item) (writeList (xs.map write)) (xs.all good) xs := by
  intro rest _
  have hitems := yields_readItems hitem hsolid true rest
  rw [itemsText_true] at hitems
  rw [writeList, List.cons_append, List.append_assoc]
  exact yields_readBehindBlank rfl (hitems.map fun _ => ⟨rfl, rfl⟩)

/-! ## Pairs -/

theorem yields_readRequired (expected : Expected) (count : ℕ) (hitem : Recovers item text good a)
    (hsolid : Solid text) (hrest : Delimited rest) :
    Yields good a rest
      (readRequired item count expected (separator (count == 0) ++ (text ++ rest))) := by
  obtain ⟨hle, hnext⟩ := nextItem_solid (count == 0) hsolid rest
  rw [readRequired, hnext]
  exact (hitem rest hrest).map fun _ => ⟨rfl, rfl⟩

theorem recovers_pair [NumberText] (h : NumberText.Faithful) (x y : Float) :
    Recovers readPair (writeList [writeDouble x, writeDouble y]) (x.isFinite && y.isFinite)
      (x, y) := by
  intro rest _
  have hy := yields_readRequired .pair 1 (recovers_double h y) (solid_writeDouble h y)
    (delimited_bracket rest)
  have hx := yields_readRequired .pair 0 (recovers_double h x) (solid_writeDouble h x)
    (delimited_comma (writeDouble y ++ ']' :: rest))
  have htext : writeList [writeDouble x, writeDouble y] ++ rest =
      '[' :: (writeDouble x ++ (',' :: (writeDouble y ++ ']' :: rest))) := by
    simp [writeList, commaSeparated]
  rw [htext]
  refine yields_readBehindBlank rfl ?_
  refine hx.bind fun _ => hy.bind_true fun _ => ?_
  exact (readListEnd_bracket rest).map fun _ => ⟨rfl, rfl⟩

end

end Raceway.Json
