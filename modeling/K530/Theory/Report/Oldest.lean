import K530.Theory.Report.Ring

/-!
# The Oldest Key Gives Way

The report as a ring holds a queue of keys: a key that is added goes to its end,
a key that is taken out leaves it, and a seventh key puts out the first, which has
been in the report since before any of the others was.

This stands as long as the keys are not cleared while there are some. Clearing
them leaves the count as it was, and it is wrong from then on.

## Main definitions

* `queueAfter`: The queue.

## Theorems

* `ringReport_laysOut`: The queue lies in the ring.
* `ring_report_iff`: Exactly the runs that clear nothing are as they should be.
-/

namespace K530

namespace RingReport

variable {r : RingReport} {xs : List Byte}

/-! ### Runs -/

def queueStep (queue : List Byte) : RingOp → List Byte
  | .add code => enqueue queue code
  | .del code => queue.erase code
  | .clear => []

def queueAfter (ops : List RingOp) : List Byte := ops.foldl queueStep []

variable (ops : List RingOp)

theorem ringReport_concat (op : RingOp) : ringReport (ops ++ [op]) = (ringReport ops).step op :=
  List.foldl_concat ..

theorem queueAfter_concat (op : RingOp) :
    queueAfter (ops ++ [op]) = queueStep (queueAfter ops) op :=
  List.foldl_concat ..

/-- The keys are cleared only when there are none. -/
def ClearsNothing (ops : List RingOp) : Prop :=
  ∀ before after, ops = before ++ .clear :: after → (ringReport before).hasAnykey = 0

theorem ClearsNothing.left {ops more : List RingOp} (h : ClearsNothing (ops ++ more)) :
    ClearsNothing ops := by
  rintro before after rfl
  exact h before (after ++ more) (by simp)

theorem ClearsNothing.of_prefix {before ops : List RingOp} (h : ClearsNothing ops)
    (hbefore : before <+: ops) : ClearsNothing before := by
  obtain ⟨more, rfl⟩ := hbefore
  exact h.left

theorem LaysOut.step (h : r.LaysOut xs) (op : RingOp)
    (hclear : op = .clear → r.hasAnykey = 0) :
    ∃ ys, (r.step op).LaysOut ys ∧ keysIn ys = queueStep (keysIn xs) op := by
  cases op with
  | add code => exact h.addKeyByte code.val code.property
  | del code => exact h.delKeyByte code.val code.property
  | clear =>
    have hnone := hclear rfl
    rw [h.hasAnykey_eq, List.length_eq_zero_iff] at hnone
    -- Without keys there are no holes either, and clearing changes nothing.
    have hnil : xs = [] := by
      by_contra hne
      exact keysIn_ne_nil xs h.last hne hnone
    subst hnil
    exact ⟨[], ⟨rfl, h.tail, h.length_le, h.count, h.last⟩, rfl⟩

theorem ringReport_laysOut (h : ClearsNothing ops) :
    ∃ xs, (ringReport ops).LaysOut xs ∧ keysIn xs = queueAfter ops := by
  induction ops using List.reverseRecOn with
  | nil => exact ⟨[], ⟨rfl, rfl, by decide, rfl, by simp⟩, rfl⟩
  | append_singleton ops op ih =>
    obtain ⟨xs, hxs, hqueue⟩ := ih h.left
    rw [ringReport_concat, queueAfter_concat, ← hqueue]
    exact hxs.step op (fun hop => h ops [] (by rw [hop]))

theorem queueStep_cases (queue : List Byte) (op : RingOp) :
    (queueStep queue op).Sublist queue ∨
      ∃ code rest, op = .add code ∧ code.val ∉ queue ∧ List.Sublist rest queue ∧
        queueStep queue op = rest ++ [code.val] := by
  cases op with
  | add code =>
    by_cases hin : code.val ∈ queue
    · exact Or.inl (by rw [queueStep, enqueue_of_mem hin])
    · -- The first of the queue may give way, and the rest keep their order.
      refine Or.inr ⟨code, _, rfl, hin, ?_, enqueue_of_not_mem hin⟩
      by_cases hfull : queue.length = 6
      · rw [if_pos hfull]
        exact List.tail_sublist queue
      · rw [if_neg hfull]
  | del code => exact Or.inl List.erase_sublist
  | clear => exact Or.inl (List.nil_sublist queue)

theorem queueAfter_nodup : (queueAfter ops).Nodup := by
  induction ops using List.reverseRecOn with
  | nil => exact List.nodup_nil
  | append_singleton ops op ih =>
    rw [queueAfter_concat]
    rcases queueStep_cases (queueAfter ops) op with hsub | ⟨code, rest, _, hin, hsub, hstep⟩
    · exact ih.sublist hsub
    · rw [hstep, ← List.concat_eq_append, List.nodup_concat]
      exact ⟨fun hc => hin (hsub.subset hc), ih.sublist hsub⟩

theorem inReport_iff (h : ClearsNothing ops) (code : KeyCode) :
    InReport (ringReport ops) code.val ↔ code.val ∈ queueAfter ops := by
  obtain ⟨xs, hxs, hqueue⟩ := ringReport_laysOut ops h
  rw [← hqueue]
  exact hxs.mem_iff code.val code.property

theorem queueAfter_ne_zero : ∀ code ∈ queueAfter ops, code ≠ 0 := by
  induction ops using List.reverseRecOn with
  | nil => exact fun _ hcode => absurd hcode List.not_mem_nil
  | append_singleton ops op ih =>
    intro x hx
    rw [queueAfter_concat] at hx
    rcases queueStep_cases (queueAfter ops) op with hsub | ⟨code, rest, _, _, hsub, hstep⟩
    · exact ih x (hsub.subset hx)
    · rw [hstep] at hx
      rcases List.mem_append.mp hx with hx | hx
      · exact ih x (hsub.subset hx)
      · exact List.mem_singleton.mp hx ▸ code.property

/-- A key has been in the report since before another was. -/
def OlderThan (ops : List RingOp) (old new : Byte) : Prop :=
  ∃ before after, ops = before ++ after ∧ ¬ InReport (ringReport before) new ∧
    ∀ some, some <+: after → InReport (ringReport (before ++ some)) old

theorem OlderThan.concat {ops : List RingOp} {old new : Byte} (h : OlderThan ops old new)
    (op : RingOp) (hold : InReport (ringReport (ops ++ [op])) old) :
    OlderThan (ops ++ [op]) old new := by
  obtain ⟨before, after, rfl, hnew, hall⟩ := h
  refine ⟨before, after ++ [op], List.append_assoc .., hnew, fun some hsome => ?_⟩
  rcases List.prefix_concat_iff.mp hsome with rfl | hsome
  · rwa [← List.append_assoc]
  · exact hall some hsome

theorem queueAfter_older (h : ClearsNothing ops) : (queueAfter ops).Pairwise (OlderThan ops) := by
  induction ops using List.reverseRecOn with
  | nil => exact List.Pairwise.nil
  | append_singleton ops op ih =>
    have hin : ∀ x ∈ queueAfter (ops ++ [op]), InReport (ringReport (ops ++ [op])) x :=
      fun x hx => (inReport_iff _ h ⟨x, queueAfter_ne_zero _ x hx⟩).mpr hx
    have hbefore : ∀ x ∈ queueAfter ops, InReport (ringReport ops) x :=
      fun x hx => (inReport_iff _ h.left ⟨x, queueAfter_ne_zero _ x hx⟩).mpr hx
    rw [queueAfter_concat] at hin ⊢
    rcases queueStep_cases (queueAfter ops) op with hsub | ⟨code, rest, rfl, hnot, hsub, hstep⟩
    · -- Those that stay were there in the same order.
      refine ((ih h.left).sublist hsub).imp_of_mem (fun hx _ hold => ?_)
      exact hold.concat op (hin _ hx)
    · rw [hstep] at hin ⊢
      rw [List.pairwise_append]
      refine ⟨((ih h.left).sublist hsub).imp_of_mem (fun hx _ hold => ?_),
        List.pairwise_singleton .., fun x hx y hy => ?_⟩
      · exact hold.concat _ (hin _ (List.mem_append_left _ hx))
      · -- It was in the report when the key that is added was not.
        rw [List.mem_singleton] at hy
        subst hy
        refine ⟨ops, [.add code], rfl, fun hc => hnot ((inReport_iff ops h.left code).mp hc),
          fun some hsome => ?_⟩
        rcases List.prefix_concat_iff.mp (show some <+: [] ++ [RingOp.add code] from hsome) with
          rfl | hnil
        · exact hin x (List.mem_append_left _ hx)
        · rw [List.prefix_nil.mp hnil, List.append_nil]
          exact hbefore x (hsub.subset hx)

end RingReport

open RingReport

/-! ### The law -/

/-- Throughout a run the count is the number of keys, the keys are distinct and
    in the window, a key is in the report after it is added and not after it is
    taken out, and adding one to a report that is full puts out the oldest key and
    no other. -/
structure RingLaw (ops : List RingOp) : Prop where
  counted : ∀ before, before <+: ops →
    (ringReport before).count.toInt = (ringReport before).hasAnykey
  distinct : ∀ before, before <+: ops → ∀ i j,
    (ringReport before).keys i = (ringReport before).keys j →
      (ringReport before).keys i ≠ 0 → i = j
  inWindow : ∀ before, before <+: ops → ∀ i, (ringReport before).keys i ≠ 0 →
    i ∈ ringLoop (ringReport before).head (ringReport before).tail
  deleted : ∀ before (code : KeyCode), before ++ [.del code] <+: ops →
    ¬ InReport (ringReport (before ++ [.del code])) code.val
  added : ∀ before (code : KeyCode), before ++ [.add code] <+: ops →
    InReport (ringReport (before ++ [.add code])) code.val
  evicts : ∀ before (code : KeyCode), before ++ [.add code] <+: ops →
    (∀ i, (ringReport before).keys i ≠ 0) → ¬ InReport (ringReport before) code.val →
      ∃ oldest : KeyCode, InReport (ringReport before) oldest.val ∧
        (∀ other : KeyCode, InReport (ringReport before) other.val → other ≠ oldest →
          OlderThan before oldest.val other.val) ∧
        ∀ key : KeyCode, InReport (ringReport (before ++ [.add code])) key.val ↔
          key = code ∨ (InReport (ringReport before) key.val ∧ key ≠ oldest)

theorem evicts_first (before : List RingOp) (code : KeyCode)
    (h : ClearsNothing (before ++ [.add code])) (hfull : ∀ i, (ringReport before).keys i ≠ 0)
    (hnot : ¬ InReport (ringReport before) code.val) :
    ∃ oldest : KeyCode, InReport (ringReport before) oldest.val ∧
      (∀ other : KeyCode, InReport (ringReport before) other.val → other ≠ oldest →
        OlderThan before oldest.val other.val) ∧
      ∀ key : KeyCode, InReport (ringReport (before ++ [.add code])) key.val ↔
        key = code ∨ (InReport (ringReport before) key.val ∧ key ≠ oldest) := by
  obtain ⟨xs, hxs, hqueue⟩ := ringReport_laysOut before h.left
  -- A report without a hole has six keys, so the queue has.
  have hlength : (queueAfter before).length = 6 := by
    rw [← hqueue, ← hxs.hasAnykey_eq]
    unfold hasAnykey
    rw [List.countP_eq_length.mpr (fun i _ => decide_eq_true (hfull i)), List.length_finRange]
  have holder := queueAfter_older before h.left
  have hnodup := queueAfter_nodup before
  have hnonzero := queueAfter_ne_zero before
  have hin := inReport_iff before h.left
  have hafter := inReport_iff _ h
  have hnew : code.val ∉ queueAfter before := fun hc => hnot ((hin code).mpr hc)
  have hstep : queueAfter (before ++ [.add code]) = (queueAfter before).tail ++ [code.val] := by
    rw [queueAfter_concat, queueStep, enqueue_of_not_mem hnew, if_pos hlength]
  rw [hstep] at hafter
  -- From here on it is a matter of the queue alone: `x` is the first of it.
  generalize queueAfter before = queue at *
  obtain ⟨x, rest, rfl⟩ := List.exists_cons_of_ne_nil
    (List.ne_nil_of_length_eq_add_one hlength)
  rw [List.tail_cons] at hafter
  have hx : x ∉ rest := (List.nodup_cons.mp hnodup).1
  refine ⟨⟨x, hnonzero x List.mem_cons_self⟩, (hin _).mpr List.mem_cons_self,
    fun other hother hne => ?_, fun key => ?_⟩
  · rcases List.mem_cons.mp ((hin other).mp hother) with heq | hrest
    · exact absurd (Subtype.ext heq) hne
    · exact (List.pairwise_cons.mp holder).1 other.val hrest
  · rw [hafter, hin, List.mem_append, List.mem_singleton, List.mem_cons, ← Subtype.ext_iff,
      or_comm]
    refine or_congr_right ?_
    constructor
    · intro hrest
      exact ⟨Or.inr hrest, fun heq => hx (by rwa [heq] at hrest)⟩
    · rintro ⟨heq | hrest, hne⟩
      · exact absurd (Subtype.ext heq) hne
      · exact hrest

theorem hasAnykey_of_counted (r : RingReport) (hbefore : r.count.toInt = r.hasAnykey)
    (hafter : r.clearKeysFromReport.count.toInt = r.clearKeysFromReport.hasAnykey) :
    r.hasAnykey = 0 := by
  -- The keys are gone and the count is not.
  have hnone : r.clearKeysFromReport.hasAnykey = 0 := rfl
  have hsame : r.clearKeysFromReport.count = r.count := rfl
  rw [hnone, hsame, hbefore] at hafter
  exact_mod_cast hafter

/-- A run is as it should be exactly if it clears nothing. -/
theorem ring_report_iff (ops : List RingOp) : RingLaw ops ↔ ClearsNothing ops := by
  constructor
  · rintro h before after rfl
    have hbefore := h.counted before (List.prefix_append ..)
    have hafter := h.counted (before ++ [.clear]) ⟨after, by simp⟩
    -- The count is right before the clearing and after it.
    rw [ringReport_concat] at hafter
    exact hasAnykey_of_counted _ hbefore hafter
  · intro h
    refine ⟨fun before hb => ?_, fun before hb => ?_, fun before hb => ?_,
      fun before code hb => ?_, fun before code hb => ?_, fun before code hb hfull hnot => ?_⟩
    · obtain ⟨xs, hxs, _⟩ := ringReport_laysOut before (h.of_prefix hb)
      exact hxs.counted
    · obtain ⟨xs, hxs, hqueue⟩ := ringReport_laysOut before (h.of_prefix hb)
      exact hxs.distinct (hqueue ▸ queueAfter_nodup before)
    · obtain ⟨xs, hxs, _⟩ := ringReport_laysOut before (h.of_prefix hb)
      exact hxs.inWindow
    · rw [inReport_iff _ (h.of_prefix hb), queueAfter_concat]
      exact (queueAfter_nodup before).not_mem_erase
    · rw [inReport_iff _ (h.of_prefix hb), queueAfter_concat, queueStep]
      by_cases hin : code.val ∈ queueAfter before
      · rwa [enqueue_of_mem hin]
      · rw [enqueue_of_not_mem hin]
        exact List.mem_append_right _ (List.mem_singleton_self _)
    · exact evicts_first before code (h.of_prefix hb) hfull hnot

/-- A key is added and the keys are cleared: one key is counted. -/
theorem ring_report_broken : ¬ ∀ ops : List RingOp, RingLaw ops := by
  intro h
  have hcounted := (h [.add ⟨4, by decide⟩, .clear]).counted _ (List.prefix_refl _)
  exact absurd hcounted (by decide)

end K530
