/-
  What the cancel and shutdown functions of the token exchange do: they take
  orders out of the book and give their tokens back, and leave everything else.

  One lemma per loop, from the orders at one price to the whole book.  Each
  says what a run that ends has done, and that with the invariant of the book
  it always ends.
-/
import Tecracoin.Elysium.Book
import Tecracoin.Elysium.Transfer

namespace Tecracoin.Elysium

open Data Op Ledger List

variable {s s' s'' : Ledger} {prop propertyDesired : PropertyId} {E : Abort → Prop}
  {removes : CMPMetaDEx → Bool} {senderAddr : Address} {os : MdSet} {levels : List (ℚ × MdSet)}

/-! ## Releasing orders -/

/-- What the release of `x` tokens adds to a bucket. -/
def releaseDelta (x : Int) (t : TallyType) : Int :=
  if t = .METADEX_RESERVE then -x else if t = .BALANCE then x else 0

/-- The tokens of some orders have gone from the reserve back to the balance. -/
structure Released (os : List CMPMetaDEx) (s s' : Ledger) : Prop where
  money : ∀ a p t, s'.money a p t = s.money a p t + releaseDelta (openAmount a p os) t
  sound : Sound s → Sound s'
  rest : s' = { s with mpTallyMap := s'.mpTallyMap }

namespace Released

variable {os os' : List CMPMetaDEx}

lemma refl (s : Ledger) : Released [] s s where
  money a p t := by
    rw [openAmount_nil]
    unfold releaseDelta
    split_ifs <;> omega
  sound h := h
  rest := rfl

lemma trans (h : Released os s s') (h' : Released os' s' s'') : Released (os ++ os') s s'' where
  money a p t := by
    rw [h'.money, h.money, openAmount_append]
    unfold releaseDelta
    split_ifs <;> omega
  sound hs := h'.sound (h.sound hs)
  rest := by rw [h'.rest, h.rest]

section
variable (h : Released os s s')
include h

lemma metadex : s'.metadex = s.metadex := by rw [h.rest]

lemma reserve (a : Address) (p : PropertyId) :
    s'.money a p .METADEX_RESERVE = s.money a p .METADEX_RESERVE - openAmount a p os := by
  rw [h.money, releaseDelta, if_pos rfl]
  ring

end

end Released

/-- What is asked of a release. -/
structure CanRelease (o : CMPMetaDEx) (s : Ledger) : Prop where
  sound : Sound s
  remaining : 0 < o.amountRemaining
  covered : o.amountRemaining ≤ s.money o.addr o.property .METADEX_RESERVE

lemma releaseOrder_ends {o : CMPMetaDEx} (hE : ¬ CanRelease o s → ∀ e, E e) :
    Op.Ends E (releaseOrder o) s (fun _ s' => Released [o] s s') := by
  refine (transfer_ends (by decide) (by decide) (hE ∘ mt (fun h =>
    ⟨h.sound, h.remaining, h.covered, nofun⟩))).post (fun _ s' hmoved => ?_)
  refine ⟨fun a p t => ?_, hmoved.sound, hmoved.rest⟩
  rw [hmoved.money, openAmount_cons, openAmount_nil]
  unfold releaseDelta
  by_cases hsame : o.addr = a ∧ o.property = p
  · obtain ⟨rfl, rfl⟩ := hsame
    cases t <;> simp
    ring
  · have hother (c : Prop) : ¬ (a = o.addr ∧ p = o.property ∧ c) :=
      fun h => hsame ⟨h.1.symm, h.2.1.symm⟩
    rw [if_neg (hother _), if_neg (hother _), if_neg hsame]
    cases t <;> simp

/-! ## The loops -/

/-- What is asked of a walk through a level: the reserves cover what it removes. -/
structure Releasable (removes : CMPMetaDEx → Bool) (os : MdSet) (s : Ledger) : Prop where
  sound : Sound s
  remaining : ∀ o ∈ os, 0 < o.amountRemaining
  covered : ∀ a p, openAmount a p (os.filter removes) ≤ s.money a p .METADEX_RESERVE

lemma cancelOffers_ends (hE : ¬ Releasable removes os s → ∀ e, E e) :
    Op.Ends E (cancelOffers removes os) s (fun r s' =>
      r.1 = os.filter (fun o => !removes o) ∧ Released (os.filter removes) s s') := by
  induction os generalizing s with
  | nil => exact ends_pure ⟨rfl, .refl s⟩
  | cons o os ih =>
    refine ends_ite (fun hremoves => ?_) (fun hkeeps => ?_)
    · have hfilter : (o :: os).filter removes = [o] ++ os.filter removes := by
        rw [filter_cons, if_pos hremoves]
        rfl
      refine ends_bind (releaseOrder_ends (hE ∘ mt (fun h => ?_))) ?_
      · -- the reserve covers `o` and the orders after it
        have hcovered := h.covered o.addr o.property
        have hnonneg : 0 ≤ openAmount o.addr o.property (os.filter removes) :=
          openAmount_nonneg (fun x hx =>
            (h.remaining x (.tail _ (mem_of_mem_filter hx))).le)
        rw [hfilter, openAmount_append, openAmount_cons, openAmount_nil, if_pos ⟨rfl, rfl⟩]
          at hcovered
        exact ⟨h.sound, h.remaining o (.head _), by omega⟩
      rintro _ s1 hreleased
      refine ends_bind (ih (hE ∘ mt (fun h => ?_))) ?_
      · refine ⟨hreleased.sound h.sound, (forall_mem_cons.mp h.remaining).2, fun a p => ?_⟩
        have hcovered := h.covered a p
        rw [hfilter, openAmount_append] at hcovered
        rw [hreleased.reserve]
        omega
      rintro ⟨kept, removed⟩ s2 ⟨rfl, hreleased'⟩
      refine ends_pure ⟨?_, ?_⟩
      · simp [hremoves]
      · rw [hfilter]
        exact hreleased.trans hreleased'
    · rw [Bool.not_eq_true] at hkeeps
      have hfilter : (o :: os).filter removes = os.filter removes := by
        rw [filter_cons, hkeeps]
        rfl
      refine ends_bind (ih (hE ∘ mt (fun h => ?_))) ?_
      · refine ⟨h.sound, (forall_mem_cons.mp h.remaining).2, fun a p => ?_⟩
        rw [← hfilter]
        exact h.covered a p
      rintro ⟨kept, removed⟩ s1 ⟨rfl, hreleased⟩
      refine ends_pure ⟨?_, ?_⟩
      · simp [hkeeps]
      · rw [hfilter]
        exact hreleased

/-- Exactly these orders are out of the book, with their tokens given back. -/
structure Removed (os : List CMPMetaDEx) (s s' : Ledger) : Prop where
  orders : (orders s.metadex).Perm (os ++ orders s'.metadex)
  money : ∀ a p t, s'.money a p t = s.money a p t + releaseDelta (openAmount a p os) t
  rest : s' = { s with
    mpTallyMap := s'.mpTallyMap
    metadex := s'.metadex }

namespace Removed

variable {os os' : List CMPMetaDEx}

lemma refl (s : Ledger) : Removed [] s s :=
  ⟨List.Perm.refl _, (Released.refl s).money, rfl⟩

lemma trans (h : Removed os s s') (h' : Removed os' s' s'') : Removed (os ++ os') s s'' where
  orders := by
    rw [append_assoc]
    exact h.orders.trans (h'.orders.append_left os)
  money a p t := by
    rw [h'.money, h.money, openAmount_append]
    unfold releaseDelta
    split_ifs <;> omega
  rest := by rw [h'.rest, h.rest]

end Removed

/-- The reserves match the book, and no property is beyond the range. -/
structure Market (s : Ledger) : Prop where
  book : BookInv s
  sound : Sound s

/-- The reserves cover what a walk through a level can remove. -/
lemma Market.releasable (h : Market s) (removes : CMPMetaDEx → Bool)
    (prop : PropertyId) (price : ℚ) : Releasable removes (levelOf s.metadex prop price) s where
  sound := h.sound
  remaining o ho := (h.book.opened o (mem_orders_of_mem_levelOf ho)).remaining
  covered a p := by
    have hopen (o : CMPMetaDEx) (ho : o ∈ orders s.metadex) : 0 ≤ o.amountRemaining :=
      (h.book.opened o ho).remaining.le
    have hperm := orders_perm s.metadex prop price
    have hkept : 0 ≤ openAmount a p ((levelOf s.metadex prop price).filter (fun o => !removes o)) :=
      openAmount_nonneg (fun o ho =>
        hopen o (mem_orders_of_mem_levelOf (mem_of_mem_filter ho)))
    have helse : 0 ≤ openAmount a p (elsewhere s.metadex prop price) :=
      openAmount_nonneg (fun o ho => hopen o (hperm.mem_iff.mpr (mem_append_right _ ho)))
    rw [h.book.reserve, openAmount_perm hperm, openAmount_append,
      openAmount_filter (levelOf s.metadex prop price) removes]
    omega

lemma Thinned.filter (q : CMPMetaDEx → Bool) (h : ∀ o ∈ os, 0 < o.amountRemaining) :
    Thinned os (os.filter q) where
  positions := filter_sublist.map _
  shrunk o ho := ⟨o, mem_of_mem_filter ho, .refl (h o (mem_of_mem_filter ho))⟩

section

variable {price : ℚ} (h : Released ((levelOf s.metadex prop price).filter removes) s s')
include h

/-- One level cancelled and stored. -/
lemma Released.market (hs : Market s) :
    Market (s'.withLevel prop price
      ((levelOf s.metadex prop price).filter (fun o => !removes o))) where
  book := by
    have hreleasable := hs.releasable removes prop price
    refine hs.book.withLevel h.metadex (.filter _ hreleasable.remaining) (fun a p => ?_)
    rw [h.reserve, openAmount_filter (levelOf s.metadex prop price) removes]
    ring
  sound := by
    have hsound := h.sound hs.sound
    exact ⟨hsound.nonneg, hsound.cached, hsound.capped⟩

lemma Released.removed :
    Removed ((levelOf s.metadex prop price).filter removes) s (s'.withLevel prop price
      ((levelOf s.metadex prop price).filter (fun o => !removes o))) where
  orders := by
    have hafter := orders_storeLevel s'.metadex prop price
      ((levelOf s.metadex prop price).filter (fun o => !removes o))
    rw [h.metadex] at hafter
    have hsplit := (filter_append_perm removes (levelOf s.metadex prop price)).symm
    refine (orders_perm s.metadex prop price).trans ((hsplit.append_right _).trans ?_)
    rw [append_assoc, withLevel, h.metadex]
    exact hafter.symm.append_left _
  money := h.money
  rest := by rw [withLevel, h.rest]

end

/-- The loop over the prices of one property. -/
lemma cancelLevels_ends (hnodup : (levels.map Prod.fst).Nodup)
    (hlevels : ∀ level ∈ levels, (pricesOf s.metadex prop).get? level.1 = some level.2)
    (hE : ¬ Market s → ∀ e, E e) :
    Op.Ends E (cancelLevels removes prop levels) s (fun _ s' =>
      Removed ((levels.flatMap Prod.snd).filter removes) s s' ∧ (Market s → Market s') ∧
      ∀ prop', prop' ≠ prop → s'.metadex.get? prop' = s.metadex.get? prop') := by
  induction levels generalizing s with
  | nil => exact ends_pure ⟨.refl s, fun h => h, fun _ _ => rfl⟩
  | cons level levels ih =>
    obtain ⟨price, indexes⟩ := level
    rw [map_cons, nodup_cons] at hnodup
    have hget := hlevels (price, indexes) (.head _)
    have hlevel : levelOf s.metadex prop price = indexes := by
      rw [levelOf, hget, Option.getD_some]
    refine ends_bind (cancelOffers_ends (hE ∘ mt (fun h => ?_))) ?_
    · rw [← hlevel]
      exact h.releasable removes prop price
    rintro ⟨kept, removed⟩ s1 ⟨hkept, hreleased⟩
    dsimp only at hkept
    refine ends_modify_bind ?_
    have hfirst : Removed (indexes.filter removes) s (s1.withLevel prop price kept) ∧
        (Market s → Market (s1.withLevel prop price kept)) := by
      rw [← hlevel] at hreleased hkept ⊢
      rw [hkept]
      exact ⟨hreleased.removed, hreleased.market⟩
    refine ends_bind (ih hnodup.2 (fun level hmem => ?_) (hE ∘ mt hfirst.2)) ?_
    · -- the other levels are still there
      have hne : level.1 ≠ price := fun heq =>
        hnodup.1 (heq ▸ mem_map.mpr ⟨level, hmem, rfl⟩)
      have hprices : pricesOf (s1.withLevel prop price kept).metadex prop
          = (pricesOf s1.metadex prop).set ltPrice price kept := pricesOf_storeLevel_self
      rw [hprices, StdMap.get?_set_of_ne hne, hreleased.metadex]
      exact hlevels level (.tail _ hmem)
    rintro more s2 ⟨hremoved, hmarket, hother⟩
    refine ends_pure ⟨?_, fun h => hmarket (hfirst.2 h), fun prop' hne => ?_⟩
    · rw [flatMap_cons, filter_append]
      exact hfirst.1.trans hremoved
    · rw [hother prop' hne, withLevel, storeLevel, StdMap.get?_set_of_ne hne, hreleased.metadex]

/-- The loop over all books removes the chosen orders and nothing else. -/
lemma cancelProperties_ends {properties : List (PropertyId × MdPricesMap)}
    (hnodup : (properties.map Prod.fst).Nodup)
    (hproperties : ∀ property ∈ properties, s.metadex.get? property.1 = some property.2)
    (hE : ¬ Market s → ∀ e, E e) :
    Op.Ends E (cancelProperties removes properties) s (fun _ s' =>
      Removed ((properties.flatMap (fun e => e.2.elems id)).filter removes) s s' ∧
      (Market s → Market s')) := by
  induction properties generalizing s with
  | nil => exact ends_pure ⟨.refl s, fun h => h⟩
  | cons property properties ih =>
    obtain ⟨prop, prices⟩ := property
    rw [map_cons, nodup_cons] at hnodup
    have hget := hproperties (prop, prices) (.head _)
    refine ends_bind (cancelLevels_ends prices.nodupKeys (fun level hmem => ?_) hE) ?_
    · rw [pricesOf, hget, Option.getD_some]
      exact StdMap.get?_eq_some_iff.mpr hmem
    rintro removed s1 ⟨hfirst, hmarket, hother⟩
    refine ends_bind (ih hnodup.2 (fun property hmem => ?_) (hE ∘ mt hmarket)) ?_
    · have hne : property.1 ≠ prop := fun heq =>
        hnodup.1 (heq ▸ mem_map.mpr ⟨property, hmem, rfl⟩)
      rw [hother _ hne]
      exact hproperties property (.tail _ hmem)
    rintro more s2 ⟨hrest, hmarket'⟩
    refine ends_pure ⟨?_, fun h => hmarket' (hmarket h)⟩
    rw [flatMap_cons, filter_append]
    exact hfirst.trans hrest

/-! ## The functions -/

/-- What a cancel function does. -/
structure CancelDone (s s' : Ledger) : Prop where
  removed : ∃ os, Removed os s s'
  market : Market s → Market s'

section
variable (hE : ¬ Market s → ∀ e, E e)
include hE

lemma metaDExCancelAtPrice_ends {amount amountDesired : Int} :
    Op.Ends E (metaDExCancelAtPrice senderAddr prop amount propertyDesired amountDesired) s
      (fun _ s' => CancelDone s s') := by
  refine ends_get_bind ?_
  cases hget : s.metadex.get? prop with
  | none => exact ends_pure ⟨⟨_, .refl s⟩, fun h => h⟩
  | some prices =>
    refine ends_bind (cancelLevels_ends
      (prices.nodupKeys.sublist (filter_sublist.map _)) (fun level hmem => ?_) hE) ?_
    · rw [pricesOf, hget, Option.getD_some]
      exact StdMap.get?_eq_some_iff.mpr (mem_of_mem_filter hmem)
    rintro removed s' ⟨hremoved, hmarket, -⟩
    exact ends_pure ⟨⟨_, hremoved⟩, hmarket⟩

lemma metaDExCancelAllForPair_ends :
    Op.Ends E (metaDExCancelAllForPair senderAddr prop propertyDesired) s
      (fun _ s' => CancelDone s s') := by
  refine ends_get_bind ?_
  cases hget : s.metadex.get? prop with
  | none => exact ends_pure ⟨⟨_, .refl s⟩, fun h => h⟩
  | some prices =>
    refine ends_bind (cancelLevels_ends prices.nodupKeys (fun level hmem => ?_) hE) ?_
    · rw [pricesOf, hget, Option.getD_some]
      exact StdMap.get?_eq_some_iff.mpr hmem
    rintro removed s' ⟨hremoved, hmarket, -⟩
    exact ends_pure ⟨⟨_, hremoved⟩, hmarket⟩

lemma metaDExCancelEverything_ends {ecosystem : Nat} :
    Op.Ends E (metaDExCancelEverything senderAddr ecosystem) s (fun _ s' => CancelDone s s') := by
  refine ends_get_bind ?_
  refine ends_bind (cancelProperties_ends
    (s.metadex.nodupKeys.sublist (filter_sublist.map _)) (fun property hmem => ?_) hE) ?_
  · exact StdMap.get?_eq_some_iff.mpr (mem_of_mem_filter hmem)
  rintro removed s' ⟨hremoved, hmarket⟩
  exact ends_pure ⟨⟨_, hremoved⟩, hmarket⟩

lemma metaDExShutdown_ends :
    Op.Ends E metaDExShutdown s (fun rc s' =>
      CancelDone s s' ∧ rc = 0 ∧ Removed (orders s.metadex) s s') := by
  refine ends_get_bind ?_
  refine ends_bind (cancelProperties_ends s.metadex.nodupKeys
    (fun property hmem => StdMap.get?_eq_some_iff.mpr hmem) hE) ?_
  rintro removed s' ⟨hremoved, hmarket⟩
  rw [filter_true] at hremoved
  exact ends_pure ⟨⟨⟨_, hremoved⟩, hmarket⟩, rfl, hremoved⟩

end

/-! ## The shutdown of pairs without the root token -/

/-- The abort of a loop that never ends. -/
def NeverEnds (e : Abort) : Prop := e = .diverges "MetaDEx_SHUTDOWN_ALLPAIR"

lemma shutdownOffers_truncates :
    Truncates (∀ o ∈ os, allPair o = true) NeverEnds (shutdownOffers os)
      (cancelOffers (fun _ => true) os >>= fun r => pure r.1) := by
  induction os with
  | nil => exact .refl (fun o ho => nomatch ho) _
  | cons o os ih =>
    have hcancel : (cancelOffers (fun _ => true) (o :: os) >>= fun r => pure r.1)
        = (releaseOrder o >>= fun _ => cancelOffers (fun _ => true) os >>= fun r => pure r.1) := by
      simp [cancelOffers]
    rw [hcancel, forall_mem_cons]
    unfold shutdownOffers
    by_cases hpair : allPair o = true
    · rw [if_pos hpair, and_iff_right hpair]
      exact .after _ (fun _ => ih)
    · rw [if_neg hpair]
      exact .of_throw (fun h => hpair h.1) rfl

lemma shutdownLevels_truncates :
    Truncates (∀ o ∈ levels.flatMap Prod.snd, allPair o = true) NeverEnds
      (shutdownLevels prop levels)
      (cancelLevels (fun _ => true) prop levels >>= fun _ => pure ()) := by
  induction levels with
  | nil => exact .refl (fun o ho => nomatch ho) _
  | cons level levels ih =>
    obtain ⟨price, indexes⟩ := level
    have hcancel : (cancelLevels (fun _ => true) prop ((price, indexes) :: levels)
          >>= fun _ => pure ())
        = ((cancelOffers (fun _ => true) indexes >>= fun r => pure r.1) >>= fun indexes' =>
            modify (fun s : Ledger => s.withLevel prop price indexes') >>= fun _ =>
              cancelLevels (fun _ => true) prop levels >>= fun _ => pure ()) := by
      simp [cancelLevels]
    rw [hcancel, flatMap_cons, forall_mem_append]
    exact .bind shutdownOffers_truncates (fun _ => .after _ (fun _ => ih))

lemma shutdownProperties_truncates (properties : List (PropertyId × MdPricesMap)) :
    Truncates (∀ o ∈ properties.flatMap (fun e => e.2.elems id), allPair o = true) NeverEnds
      (shutdownProperties properties)
      (cancelProperties (fun _ => true) properties >>= fun _ => pure ()) := by
  induction properties with
  | nil => exact .refl (fun o ho => nomatch ho) _
  | cons property properties ih =>
    obtain ⟨prop, prices⟩ := property
    have hcancel : (cancelProperties (fun _ => true) ((prop, prices) :: properties)
          >>= fun _ => pure ())
        = ((cancelLevels (fun _ => true) prop prices.entries >>= fun _ => pure ()) >>= fun _ =>
            cancelProperties (fun _ => true) properties >>= fun _ => pure ()) := by
      simp [cancelProperties]
    rw [hcancel, flatMap_cons, forall_mem_append]
    exact .bind shutdownLevels_truncates (fun _ => ih)

/-- `MetaDEx_SHUTDOWN_ALLPAIR` does what `MetaDEx_SHUTDOWN` does, it closes every order, if there
    are only orders without the root token. Otherwise it never ends. -/
lemma metaDExShutdownAllpair_truncates :
    Truncates (∀ o ∈ orders s.metadex, allPair o = true) NeverEnds
      (fun _ => metaDExShutdownAllpair s) (fun _ => metaDExShutdown s) := by
  have hshutdown : metaDExShutdown
      = (get >>= fun s : Ledger => (cancelProperties (fun _ => true) s.metadex.entries
          >>= fun _ => pure ()) >>= fun _ => pure (0 : Int)) := by
    simp [metaDExShutdown]
  have h := (shutdownProperties_truncates s.metadex.entries).bind
    (fun _ => Truncates.refl trivial (pure (0 : Int)))
  rw [and_true] at h
  rw [hshutdown]
  exact ⟨fun hall => funext (fun _ => congrFun (h.whole hall) s), fun hnot _ => h.aborts hnot s⟩

lemma metaDExShutdownAllpair_ends (hdiverges : ∀ e, NeverEnds e → E e)
    (hE : ¬ Market s → ∀ e, E e) :
    Op.Ends E metaDExShutdownAllpair s (fun _ s' =>
      (∀ o ∈ orders s.metadex, allPair o = true) ∧ CancelDone s s') :=
  ((metaDExShutdownAllpair_truncates).ends (s := s)
    ((metaDExShutdown_ends hE).post (fun _ _ h => h.1)) hdiverges : _)

end Tecracoin.Elysium
