/-!
This module contains facts about lists that core does not state: on lists without repetitions, on
leaving repetitions out, on joined and split lists, on sublists and prefixes, on sorting and other
orders, on what is read or walked along element by element, and on counts that drop.
-/

namespace ComponentTree

theorem nodup_map_append_singleton {α β : Type} {f : α → β} {l : List α} {a : α}
    (hl : (l.map f).Nodup) (ha : f a ∉ l.map f) : ((l ++ [a]).map f).Nodup := by
  rw [List.map_append, List.nodup_append]
  refine ⟨hl, by simp, fun x hx y hy hxy => ha ?_⟩
  simp only [List.map_cons, List.map_nil, List.mem_singleton] at hy
  exact hy ▸ hxy ▸ hx

theorem eraseDupsBy_loop_append_singleton {α : Type} (r : α → α → Bool) (l kept : List α) (a : α) :
    List.eraseDupsBy.loop r (l ++ [a]) kept
      = if (List.eraseDupsBy.loop r l kept).any (r a) then List.eraseDupsBy.loop r l kept
        else List.eraseDupsBy.loop r l kept ++ [a] := by
  induction l generalizing kept with
  | nil => cases h : kept.any (r a) <;> simp [List.eraseDupsBy.loop, h]
  | cons x l ih =>
    simp only [List.cons_append, List.eraseDupsBy.loop]
    by_cases h : kept.any (r x) = true
    · simp only [h]
      apply ih
    · rw [Bool.not_eq_true] at h
      simp only [h]
      apply ih

theorem eraseDupsBy_append_singleton {α : Type} (r : α → α → Bool) (l : List α) (a : α) :
    (l ++ [a]).eraseDupsBy r
      = if (l.eraseDupsBy r).any (r a) then l.eraseDupsBy r else l.eraseDupsBy r ++ [a] :=
  eraseDupsBy_loop_append_singleton r l [] a

theorem mem_eraseDupsBy_loop {α : Type} {r : α → α → Bool} {l kept : List α} {a : α}
    (h : a ∈ List.eraseDupsBy.loop r l kept) : a ∈ l ∨ a ∈ kept := by
  induction l generalizing kept with
  | nil => exact .inr (List.mem_reverse.1 h)
  | cons x l ih =>
    simp only [List.eraseDupsBy.loop] at h
    split at h
    · cases ih h with
      | inl hl => exact .inl (List.mem_cons_of_mem _ hl)
      | inr hkept => exact .inr hkept
    · cases ih h with
      | inl hl => exact .inl (List.mem_cons_of_mem _ hl)
      | inr hkept =>
        cases List.mem_cons.1 hkept with
        | inl heq => exact .inl (heq ▸ List.mem_cons_self)
        | inr hkept => exact .inr hkept

theorem mem_of_mem_eraseDupsBy {α : Type} {r : α → α → Bool} {l : List α} {a : α}
    (h : a ∈ l.eraseDupsBy r) : a ∈ l := by
  cases mem_eraseDupsBy_loop h with
  | inl hl => exact hl
  | inr hnil => cases hnil

theorem eraseDups_filter {α : Type} [BEq α] [LawfulBEq α] (p : α → Bool) (l : List α) :
    (l.filter p).eraseDups = l.eraseDups.filter p := by
  suffices h : ∀ kept : List α, List.eraseDupsBy.loop (· == ·) (l.filter p) (kept.filter p)
      = (List.eraseDupsBy.loop (· == ·) l kept).filter p from h []
  induction l with
  | nil => simp [List.eraseDupsBy.loop]
  | cons a l ih =>
    intro kept
    by_cases hp : p a
    · have hany : (kept.filter p).any (a == ·) = kept.any (a == ·) := by
        rw [Bool.eq_iff_iff]
        simp [hp]
      rw [List.filter_cons_of_pos hp, List.eraseDupsBy.loop, List.eraseDupsBy.loop, hany]
      split
      · exact ih kept
      · rw [← ih, List.filter_cons_of_pos hp]
    · rw [List.filter_cons_of_neg hp, List.eraseDupsBy.loop]
      split
      · exact ih kept
      · rw [← ih, List.filter_cons_of_neg hp]

theorem map_eraseDupsBy {α β : Type} [BEq β] {f : α → β} {r : α → α → Bool}
    (h : ∀ a b, r a b = (f a == f b)) (l : List α) :
    (l.eraseDupsBy r).map f = (l.map f).eraseDups := by
  suffices hloop : ∀ kept, (List.eraseDupsBy.loop r l kept).map f
      = List.eraseDupsBy.loop (· == ·) (l.map f) (kept.map f) from hloop []
  induction l with
  | nil => simp [List.eraseDupsBy.loop]
  | cons a l ih =>
    intro kept
    have hany : kept.any (r a) = (kept.map f).any (f a == ·) := by
      rw [List.any_map]
      congr 1
      funext b
      exact h a b
    rw [List.map_cons, List.eraseDupsBy.loop, List.eraseDupsBy.loop, hany]
    split
    · exact ih kept
    · exact ih (a :: kept)

theorem flatMap_attach {α β : Type} (l : List α) (f : α → List β) :
    (l.attach.flatMap fun a => f a.1) = l.flatMap f := by
  rw [List.flatMap_subtype (fun _ _ => rfl), List.unattach_attach]

theorem map_toList_map_sublist_singleton {α β γ : Type} {f : α → β} {g : β → γ} {c : γ}
    (option : Option α) (h : ∀ a, g (f a) = c) :
    ((option.map f).toList.map g).Sublist [c] := by
  cases option with
  | none => exact List.nil_sublist _
  | some a => simp [h]

theorem sublist_flatMap_of_mem {α β : Type} {f : α → List β} {l : List α} {a : α} (h : a ∈ l) :
    (f a).Sublist (l.flatMap f) := by
  apply List.sublist_flatten_of_mem
  exact List.mem_map_of_mem h

theorem map_singleton_sublist_flatMap {α : Type} {f : α → List (List α)} {l : List α}
    (h : ∀ a ∈ l, [a] ∈ f a) : (l.map fun a => [a]).Sublist (l.flatMap f) := by
  induction l with
  | nil => exact .slnil
  | cons a l ih =>
    rw [List.map_cons, List.flatMap_cons, ← List.singleton_append]
    apply List.Sublist.append
    · exact List.singleton_sublist.2 (h a List.mem_cons_self)
    · exact ih fun b hb => h b (List.mem_cons_of_mem _ hb)

theorem intercalate_append_singleton {α : Type} (sep l : List α) {ls : List (List α)}
    (h : ls ≠ []) : sep.intercalate (ls ++ [l]) = sep.intercalate ls ++ sep ++ l := by
  induction ls with
  | nil => contradiction
  | cons first ls ih =>
    cases ls with
    | nil => simp [List.intercalate]
    | cons second ls =>
      have := ih (by simp)
      simp only [List.intercalate, List.cons_append, List.intersperse_cons_cons, List.flatten_cons]
        at this ⊢
      rw [this]
      simp

theorem intercalate_nil_left {α : Type} (ls : List (List α)) :
    ([] : List α).intercalate ls = ls.flatten := by
  induction ls with
  | nil => rfl
  | cons l ls ih =>
    cases ls with
    | nil => simp
    | cons l' ls =>
      rw [List.intercalate_cons_cons, ih, List.append_nil]
      rfl

theorem mem_or_exists_mem_of_mem_intercalate {α : Type} {sep : List α} {ls : List (List α)} {a : α}
    (h : a ∈ sep.intercalate ls) : a ∈ sep ∨ ∃ l ∈ ls, a ∈ l := by
  induction ls with
  | nil => simp at h
  | cons l ls ih =>
    rcases ls with _ | ⟨l', ls⟩
    · right
      exact ⟨l, List.mem_cons_self, by simpa using h⟩
    · rw [List.intercalate_cons_cons, List.mem_append, List.mem_append] at h
      rcases h with (hl | hsep) | hls
      · exact .inr ⟨l, List.mem_cons_self, hl⟩
      · exact .inl hsep
      · refine (ih hls).imp_right ?_
        rintro ⟨l'', hl'', ha⟩
        exact ⟨l'', List.mem_cons_of_mem _ hl'', ha⟩

theorem mem_and_ne_of_mem_splitOn {α : Type} [BEq α] [LawfulBEq α] {l piece : List α} {a b : α}
    (h : piece ∈ l.splitOn a) (hb : b ∈ piece) : b ∈ l ∧ b ≠ a := by
  induction l generalizing piece with
  | nil =>
    obtain rfl : piece = [] := by simpa using h
    cases hb
  | cons c l ih =>
    rcases List.exists_cons_of_ne_nil (List.splitOn_ne_nil a l) with ⟨first, pieces, hl⟩
    -- The first element begins the first piece, or it is what the list is split at.
    rw [List.splitOn_cons_eq_if_modifyHead, hl] at h
    rw [hl] at ih
    have hrest (hpiece : piece ∈ first :: pieces) : b ∈ c :: l ∧ b ≠ a :=
      (ih hpiece hb).imp_left (List.mem_cons_of_mem c)
    split at h
    next =>
      rcases List.mem_cons.1 h with rfl | hpiece
      · cases hb
      · exact hrest hpiece
    next hc =>
      rw [List.modifyHead_cons, List.mem_cons] at h
      rcases h with rfl | hpiece
      · rcases List.mem_cons.1 hb with rfl | hb
        · exact ⟨List.mem_cons_self, by simpa using hc⟩
        · exact (ih List.mem_cons_self hb).imp_left (List.mem_cons_of_mem c)
      · exact hrest (List.mem_cons_of_mem first hpiece)

theorem prefix_of_prefix_append {α : Type} {a : α} {l before rest : List α} (ha : a ∉ l)
    (hne : before ≠ []) (h : a :: l <+: before ++ (a :: l ++ rest)) : a :: l <+: before := by
  rcases List.prefix_or_prefix_of_prefix h (List.prefix_append before _) with h' | ⟨after, hafter⟩
  · exact h'
  · -- What is before is a part of the list, and the list starts with the other part.
    rw [← hafter, List.append_assoc, List.prefix_append_right_inj] at h
    cases before with
    | nil => contradiction
    | cons b before =>
      cases after with
      | nil =>
        rw [List.append_nil] at hafter
        exact ⟨[], by rw [List.append_nil, hafter]⟩
      | cons b' after =>
        obtain ⟨rfl, rfl⟩ := List.cons.inj hafter
        have hb : b' = b := (List.cons_prefix_cons.1 h).1
        rw [hb] at ha
        exact absurd (List.mem_append_right before List.mem_cons_self) ha

theorem exists_eq_append_cons_of_not_forall {α : Type} {p : α → Prop} {l : List α}
    (h : ¬∀ a ∈ l, p a) :
    ∃ before a after, l = before ++ a :: after ∧ (∀ b ∈ before, p b) ∧ ¬p a := by
  induction l with
  | nil => exact absurd (List.forall_mem_nil p) h
  | cons first l ih =>
    by_cases hfirst : p first
    · have hrest : ¬∀ a ∈ l, p a := fun hl => h (List.forall_mem_cons.2 ⟨hfirst, hl⟩)
      rcases ih hrest with ⟨before, a, after, rfl, hbefore, ha⟩
      exact ⟨first :: before, a, after, rfl, List.forall_mem_cons.2 ⟨hfirst, hbefore⟩, ha⟩
    · exact ⟨[], first, l, rfl, List.forall_mem_nil p, hfirst⟩

theorem pairwise_mergeSort_of_nodup {α : Type} {f : α → List UInt8} {l : List α}
    (h : (l.map f).Nodup) : (l.mergeSort fun a b => f a ≤ f b).Pairwise fun a b => f a < f b := by
  have hne : (l.mergeSort fun a b => f a ≤ f b).Pairwise fun a b => f a ≠ f b := by
    rw [← List.pairwise_map]
    exact ((List.mergeSort_perm l _).map f).nodup_iff.2 h
  have hle : (l.mergeSort fun a b => f a ≤ f b).Pairwise
      fun a b => decide (f a ≤ f b) = true := by
    apply List.pairwise_mergeSort
    · intro a b c hab hbc
      rw [decide_eq_true_eq] at *
      exact List.le_trans hab hbc
    · intro a b
      rw [Bool.or_eq_true, decide_eq_true_eq, decide_eq_true_eq]
      apply List.le_total
  apply (hle.and hne).imp
  intro a b h
  exact Std.lt_of_le_of_ne (of_decide_eq_true h.1) h.2

theorem foldl_eq_of_perm {α β γ : Type} {f : β → α → β} {key : α → γ} {l l' : List α}
    (h : l.Perm l') (hnodup : (l'.map key).Nodup)
    (hcomm : ∀ a ∈ l', ∀ b ∈ l', key a ≠ key b → ∀ s, f (f s a) b = f (f s b) a) (s : β) :
    l.foldl f s = l'.foldl f s := by
  induction h generalizing s with
  | nil => rfl
  | cons a _ ih =>
    apply ih (List.nodup_cons.1 hnodup).2
    exact fun b hb c hc => hcomm b (List.mem_cons_of_mem a hb) c (List.mem_cons_of_mem a hc)
  | swap a b l =>
    have hne : key a ≠ key b := fun h => (List.nodup_cons.1 hnodup).1 (by simp [h])
    simp only [List.foldl_cons]
    rw [hcomm a List.mem_cons_self b (List.mem_cons_of_mem a List.mem_cons_self) hne]
  | trans _ h ih ih' =>
    have hnodup' := (h.map key).symm.nodup hnodup
    rw [ih hnodup' fun a ha b hb => hcomm a (h.mem_iff.1 ha) b (h.mem_iff.1 hb), ih' hnodup hcomm]

theorem mapM_eq_some_map {α β : Type} {f : α → Option β} {f' : α → β} {l : List α}
    (h : ∀ a ∈ l, f a = some (f' a)) : l.mapM f = some (l.map f') := by
  induction l with
  | nil => rfl
  | cons a l ih =>
    rw [List.forall_mem_cons] at h
    simp [h.1, ih h.2]

theorem map_flatten_mapM_eq_some {α β : Type} {f : α → Option (List β)} {f' : α → List β}
    {l : List α} (h : ∀ a ∈ l, f a = some (f' a)) :
    (l.mapM f).map List.flatten = some (l.flatMap f') := by
  rw [mapM_eq_some_map h]
  rfl

theorem countP_lt_countP {α : Type} {p q : α → Bool} {l : List α} {a : α}
    (h : ∀ x ∈ l, q x = true → p x = true) (ha : a ∈ l) (hp : p a = true) (hq : q a = false) :
    l.countP q < l.countP p := by
  induction l with
  | nil => simp at ha
  | cons x l ih =>
    have htail : l.countP q ≤ l.countP p :=
      List.countP_mono_left fun y hy => h y (List.mem_cons_of_mem _ hy)
    rcases List.mem_cons.1 ha with rfl | ha
    · rw [List.countP_cons_of_pos hp, List.countP_cons_of_neg (by simp [hq])]
      omega
    · have hlt := ih (fun y hy => h y (List.mem_cons_of_mem _ hy)) ha
      have hx := h x List.mem_cons_self
      by_cases hqx : q x = true
      · rw [List.countP_cons_of_pos (hx hqx), List.countP_cons_of_pos hqx]
        omega
      · have hle : l.countP p ≤ (x :: l).countP p := (List.sublist_cons_self x l).countP_le
        rw [List.countP_cons_of_neg hqx]
        omega

end ComponentTree
