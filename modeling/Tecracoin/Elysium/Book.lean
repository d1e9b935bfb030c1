/-
  The order book as the list of its orders.

  The book is a map of maps of sets; what the exchange keeps up is a fact about
  the orders in it.  A write to one price level exchanges the orders of that
  level and leaves all others (`orders_storeLevel`), so the invariant of the
  book (`BookInv`) is kept by a walk through one level as soon as the walk
  thins the level out and keeps the reserves in step with it (`BookInv.withLevel`).
-/
import Tecracoin.Elysium.Fill

namespace Tecracoin.Elysium

open Data StdMap CMPMetaDEx List

variable {o : CMPMetaDEx} {s s' : Ledger} {indexes : MdSet} {book : MdPropertiesMap}

/-! ## The orders of a book -/

/-- All orders of a book. -/
def orders (book : MdPropertiesMap) : List CMPMetaDEx := book.elems (fun prices => prices.elems id)

/-- The orders that are not at a price of a property. -/
def elsewhere (book : MdPropertiesMap) (prop : PropertyId) (price : ℚ) : List CMPMetaDEx :=
  ((pricesOf book prop).erase price).elems id ++
    (book.erase prop).elems (fun prices => prices.elems id)

section Orders

variable (book : MdPropertiesMap) (prop : PropertyId) (price : ℚ)

lemma elems_prices {prices : MdPricesMap} :
    (prices.elems id).Perm ((prices.get? price).getD [] ++ (prices.erase price).elems id) := by
  cases hget : prices.get? price with
  | none => rw [erase_of_get?_none hget, Option.getD_none, nil_append]
  | some indexes => exact elems_of_get? id hget

lemma elems_book :
    (orders book).Perm ((pricesOf book prop).elems id ++
      (book.erase prop).elems (fun prices => prices.elems id)) := by
  unfold orders pricesOf
  cases hget : book.get? prop with
  | none =>
    rw [erase_of_get?_none hget, Option.getD_none, elems_empty, nil_append]
  | some prices => exact elems_of_get? _ hget

/-- The orders of a book are those at a price and those elsewhere. -/
lemma orders_perm : (orders book).Perm (levelOf book prop price ++ elsewhere book prop price) := by
  refine (elems_book book prop).trans ?_
  unfold levelOf elsewhere
  rw [← append_assoc]
  exact (elems_prices price).append_right _

/-- A write to a level exchanges the orders there. -/
lemma orders_storeLevel (indexes : MdSet) :
    (orders (storeLevel book prop price indexes)).Perm (indexes ++ elsewhere book prop price) := by
  have hset := elems_set (fun prices : MdPricesMap => prices.elems id) CMPTally.ltProperty book
    prop ((pricesOf book prop).set ltPrice price indexes)
  refine hset.trans ?_
  unfold elsewhere
  rw [← append_assoc]
  exact (elems_set id ltPrice (pricesOf book prop) price indexes).append_right _

variable {book prop price} {prop' : PropertyId}

lemma mem_orders_of_mem_levelOf (h : o ∈ levelOf book prop price) : o ∈ orders book :=
  (orders_perm book prop price).mem_iff.mpr (mem_append_left _ h)

lemma pricesOf_storeLevel_of_ne (h : prop' ≠ prop) :
    pricesOf (storeLevel book prop price indexes) prop' = pricesOf book prop' := by
  unfold pricesOf storeLevel
  rw [get?_set_of_ne h]

lemma pricesOf_storeLevel_self :
    pricesOf (storeLevel book prop price indexes) prop
      = (pricesOf book prop).set ltPrice price indexes := by
  unfold storeLevel
  rw [pricesOf, get?_set_self, Option.getD_some]

lemma levelOf_storeLevel {price' : ℚ} :
    levelOf (storeLevel book prop price indexes) prop' price'
      = if prop' = prop ∧ price' = price then indexes else levelOf book prop' price' := by
  unfold levelOf
  by_cases hprop : prop' = prop
  · subst hprop
    rw [pricesOf_storeLevel_self]
    by_cases hprice : price' = price
    · subst hprice
      simp
    · rw [get?_set_of_ne hprice]
      simp [hprice]
  · rw [pricesOf_storeLevel_of_ne hprop]
    simp [hprop]

end Orders

/-! ## What the orders of an address add up to -/

/-- What is left of the orders of an address that sell a property. -/
def openAmount (a : Address) (p : PropertyId) (os : List CMPMetaDEx) : Int :=
  (os.map (fun o => if o.addr = a ∧ o.property = p then o.amountRemaining else 0)).sum

section OpenAmount

variable {a : Address} {p : PropertyId} {os os' : List CMPMetaDEx}

@[simp] lemma openAmount_nil : openAmount a p [] = 0 := rfl

lemma openAmount_cons : openAmount a p (o :: os)
      = (if o.addr = a ∧ o.property = p then o.amountRemaining else 0) + openAmount a p os := by
  simp [openAmount]

lemma openAmount_append : openAmount a p (os ++ os') = openAmount a p os + openAmount a p os' := by
  simp [openAmount]

lemma openAmount_perm (h : os.Perm os') : openAmount a p os = openAmount a p os' :=
  (h.map _).sum_eq

lemma openAmount_filter (os : List CMPMetaDEx) (q : CMPMetaDEx → Bool) :
    openAmount a p os = openAmount a p (os.filter q) +
      openAmount a p (os.filter (fun o => !q o)) := by
  rw [← openAmount_append]
  exact (openAmount_perm (filter_append_perm q os)).symm

lemma openAmount_nonneg (h : ∀ o ∈ os, 0 ≤ o.amountRemaining) : 0 ≤ openAmount a p os := by
  refine sum_nonneg (forall_mem_map.mpr (fun o ho => ?_))
  split_ifs
  · exact h o ho
  · exact le_rfl

end OpenAmount

/-! ## The invariant of the book -/

/-- An order as it may rest in the book. -/
structure OpenOrder (o : CMPMetaDEx) : Prop where
  forsale : InRange o.amountForsale
  desired : InRange o.amountDesired
  remaining : 0 < o.amountRemaining
  atMost : o.amountRemaining ≤ o.amountForsale
  distinct : o.property ≠ o.desiredProperty

/-- The reserves match the order book. -/
structure BookInv (s : Ledger) : Prop where
  reserve : ∀ a p, s.money a p .METADEX_RESERVE = openAmount a p (orders s.metadex)
  filed : ∀ prop price, ∀ o ∈ levelOf s.metadex prop price, o.property = prop ∧ o.unitPrice = price
  opened : ∀ o ∈ orders s.metadex, OpenOrder o
  positions : ((orders s.metadex).map position).Nodup

/-- An order of which something may have been traded. -/
structure Shrunk (o o' : CMPMetaDEx) : Prop where
  same : o' = { o with amountRemaining := o'.amountRemaining }
  remaining : 0 < o'.amountRemaining
  atMost : o'.amountRemaining ≤ o.amountRemaining

namespace Shrunk

variable {o' : CMPMetaDEx}

lemma refl (h : 0 < o.amountRemaining) : Shrunk o o := ⟨rfl, h, le_rfl⟩

section
variable (h : Shrunk o o')
include h

lemma property : o'.property = o.property := by rw [h.same]

lemma unitPrice : o'.unitPrice = o.unitPrice := by
  rw [h.same]
  rfl

lemma position : o'.position = o.position := by
  rw [h.same]
  rfl

lemma openOrder (ho : OpenOrder o) : OpenOrder o' := by
  rw [h.same]
  exact { ho with remaining := h.remaining, atMost := h.atMost.trans ho.atMost }

end

end Shrunk

/-- Some orders are gone, some have shrunk, and the order is kept. -/
structure Thinned (os os' : MdSet) : Prop where
  positions : (os'.map position).Sublist (os.map position)
  shrunk : ∀ o' ∈ os', ∃ o ∈ os, Shrunk o o'

namespace Thinned

variable {o' : CMPMetaDEx} {os os' : MdSet}

lemma refl (h : ∀ o ∈ os, 0 < o.amountRemaining) : Thinned os os :=
  ⟨List.Sublist.refl _, fun o ho => ⟨o, ho, .refl (h o ho)⟩⟩

lemma nil : Thinned [] [] := ⟨List.Sublist.refl _, nofun⟩

lemma cons (hhead : Shrunk o o') (htail : Thinned os os') : Thinned (o :: os) (o' :: os') where
  positions := by
    rw [map_cons, map_cons, hhead.position]
    exact htail.positions.cons_cons _
  shrunk := by
    rintro x (_ | ⟨_, hx⟩)
    · exact ⟨o, .head _, hhead⟩
    · obtain ⟨y, hy, hshrunk⟩ := htail.shrunk x hx
      exact ⟨y, .tail _ hy, hshrunk⟩

lemma drop (htail : Thinned os os') : Thinned (o :: os) os' where
  positions := htail.positions.cons _
  shrunk := by
    intro x hx
    obtain ⟨y, hy, hshrunk⟩ := htail.shrunk x hx
    exact ⟨y, .tail _ hy, hshrunk⟩

end Thinned

/-- The reserves have changed as the orders have. -/
def ReservesFollow (os os' : MdSet) (s s' : Ledger) : Prop :=
  ∀ a p, s'.money a p .METADEX_RESERVE - openAmount a p os'
    = s.money a p .METADEX_RESERVE - openAmount a p os

/-- A walk through one level that thins it out keeps the invariant, once the level is stored. -/
lemma BookInv.withLevel (h : BookInv s) {prop : PropertyId} {price : ℚ} {os' : MdSet}
    (hbook : s'.metadex = s.metadex) (hthinned : Thinned (levelOf s.metadex prop price) os')
    (hfollow : ReservesFollow (levelOf s.metadex prop price) os' s s') :
    BookInv (s'.withLevel prop price os') := by
  have hbefore := orders_perm s.metadex prop price
  have hafter : (orders (s'.withLevel prop price os').metadex).Perm
      (os' ++ elsewhere s.metadex prop price) := by
    rw [← hbook]
    exact orders_storeLevel s'.metadex prop price os'
  refine ⟨fun a p => ?_, fun prop' price' o ho => ?_, fun o ho => ?_, ?_⟩
  · have hmoney : (s'.withLevel prop price os').money a p .METADEX_RESERVE
        = s'.money a p .METADEX_RESERVE := rfl
    -- the orders elsewhere are the same before and after
    have hreserve := h.reserve a p
    have hstep := hfollow a p
    rw [openAmount_perm hbefore, openAmount_append] at hreserve
    rw [hmoney, openAmount_perm hafter, openAmount_append]
    omega
  · have hlevel : levelOf (s'.withLevel prop price os').metadex prop' price'
        = if prop' = prop ∧ price' = price then os' else levelOf s.metadex prop' price' := by
      rw [← hbook]
      exact levelOf_storeLevel
    rw [hlevel] at ho
    split_ifs at ho with hsame
    · obtain ⟨rfl, rfl⟩ := hsame
      obtain ⟨old, hold, hshrunk⟩ := hthinned.shrunk o ho
      rw [hshrunk.property, hshrunk.unitPrice]
      exact h.filed prop' price' old hold
    · exact h.filed prop' price' o ho
  · rcases mem_append.mp (hafter.mem_iff.mp ho) with hlevel | helse
    · obtain ⟨old, hold, hshrunk⟩ := hthinned.shrunk o hlevel
      exact hshrunk.openOrder (h.opened old (mem_orders_of_mem_levelOf hold))
    · exact h.opened o (hbefore.mem_iff.mpr (mem_append_right _ helse))
  · have hnodup := h.positions
    rw [(hbefore.map _).nodup_iff, map_append] at hnodup
    rw [(hafter.map _).nodup_iff, map_append]
    exact hnodup.sublist (hthinned.positions.append (List.Sublist.refl _))

lemma insertOrder_perm {indexes' : MdSet} (h : insertOrder o indexes = some indexes') :
    indexes'.Perm (o :: indexes) := by
  unfold insertOrder at h
  split_ifs at h
  cases h
  exact takeWhile_cons_dropWhile_perm _ _ _

/-- A new order joins the others. -/
lemma orders_insert (h : insertOrder o (levelOf book o.property o.unitPrice) = some indexes) :
    (orders (storeLevel book o.property o.unitPrice indexes)).Perm (o :: orders book) := by
  refine (orders_storeLevel _ _ _ indexes).trans (((insertOrder_perm h).append_right _).trans ?_)
  rw [cons_append]
  exact ((orders_perm book o.property o.unitPrice).symm).cons o

/-- A new order, with its tokens in the reserve, keeps the invariant. -/
lemma BookInv.insert (h : BookInv s) (ho : OpenOrder o)
    (hfresh : o.position ∉ (orders s.metadex).map position)
    (hinsert : metaDExInsert o s.metadex = some book) (hbook : s'.metadex = book)
    (hreserve : ∀ a p, s'.money a p .METADEX_RESERVE = s.money a p .METADEX_RESERVE
      + if o.addr = a ∧ o.property = p then o.amountRemaining else 0) : BookInv s' := by
  obtain ⟨indexes, hindexes, rfl⟩ := Option.map_eq_some_iff.mp hinsert
  have hafter : (orders s'.metadex).Perm (o :: orders s.metadex) := by
    rw [hbook]
    exact orders_insert hindexes
  refine ⟨fun a p => ?_, fun prop price x hx => ?_, fun x hx => ?_, ?_⟩
  · rw [hreserve, h.reserve, openAmount_perm hafter, openAmount_cons]
    ring
  · rw [hbook, levelOf_storeLevel] at hx
    split_ifs at hx with hsame
    · obtain ⟨rfl, rfl⟩ := hsame
      rcases mem_cons.mp ((insertOrder_perm hindexes).mem_iff.mp hx) with rfl | hold
      · exact ⟨rfl, rfl⟩
      · exact h.filed _ _ x hold
    · exact h.filed prop price x hx
  · rcases mem_cons.mp (hafter.mem_iff.mp hx) with rfl | hold
    · exact ho
    · exact h.opened x hold
  · rw [(hafter.map _).nodup_iff, map_cons, nodup_cons]
    exact ⟨hfresh, h.positions⟩

end Tecracoin.Elysium
