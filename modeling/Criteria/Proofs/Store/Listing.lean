import Criteria.Proofs.Store.LastWrite
import Criteria.Store.View

/-!
The list of the rules in force. Rules are ranked by the moment at which they were made, and those of
one moment by their identifiers; no two rules in force have one rank, so the list is the only one
that holds them from the highest rank down. It does not depend on how the entries are kept, and it
changes with the ranks alone: an update changes none.
-/

set_option autoImplicit false
set_option relaxedAutoImplicit false

namespace Criteria

namespace Rule

/-- The rank of a rule: the moment at which it was made, and then its identifier. -/
def rank (r : Rule) : ℤ ×ₗ ℕ ×ₗ String :=
  toLex (r.createdAt.seconds, toLex (r.createdAt.nanos, r.id))

/-- Whether a rule stands before another one in a list: it was made later, or at the same moment
with a greater identifier. -/
def Outranks (a b : Rule) : Prop :=
  b.createdAt.before a.createdAt = true ∨ a.createdAt = b.createdAt ∧ b.id < a.id

variable {a b : Rule}

theorem outranks_iff : a.Outranks b ↔ b.rank < a.rank := by
  obtain ⟨-, -, -, -, ⟨s, n⟩, -⟩ := a
  obtain ⟨-, -, -, -, ⟨t, m⟩, -⟩ := b
  simp only [Outranks, rank, Instant.before, Prod.Lex.toLex_lt_toLex, Instant.mk.injEq,
    Bool.or_eq_true, Bool.and_eq_true, decide_eq_true_eq]
  grind

theorem listedBefore_iff : a.listedBefore b = true ↔ b.rank ≤ a.rank := by
  obtain ⟨-, -, -, -, ⟨s, n⟩, -⟩ := a
  obtain ⟨-, -, -, -, ⟨t, m⟩, -⟩ := b
  simp only [listedBefore, rank, Instant.before, Prod.Lex.toLex_le_toLex, Bool.or_eq_true,
    Bool.and_eq_true, decide_eq_true_eq, beq_iff_eq, Instant.mk.injEq]
  grind

theorem id_eq_of_rank_eq (h : a.rank = b.rank) : a.id = b.id :=
  congrArg (fun x ↦ (ofLex (ofLex x).2).2) h

instance : Std.Irrefl Outranks :=
  ⟨fun _ h ↦ lt_irrefl _ (outranks_iff.mp h)⟩

instance : Std.Antisymm Outranks :=
  ⟨fun _ _ h h' ↦ absurd (outranks_iff.mp h') (outranks_iff.mp h).asymm⟩

end Rule

namespace Store

/-- The identifiers of the rules in force, in the order of the list. -/
def listed (s : Store) : List String :=
  s.toList.map Rule.id

variable {s s' : Store} {r : Rule} {c : Compiled} {id : String}

/-! ### Order -/

theorem pairwise_toList (h : (s.entries.map Compiled.id).Nodup) :
    s.toList.Pairwise Rule.Outranks := by
  have hsorted : s.toList.Pairwise fun a b ↦ b.rank ≤ a.rank := by
    refine (List.pairwise_mergeSort ?_ ?_ _).imp Rule.listedBefore_iff.mp
    · intro a b c hab hbc
      rw [Rule.listedBefore_iff] at hab hbc ⊢
      exact hbc.trans hab
    · intro a b
      rw [Bool.or_eq_true, Rule.listedBefore_iff, Rule.listedBefore_iff]
      exact le_total b.rank a.rank
  have hdistinct : s.toList.Pairwise fun a b ↦ a.id ≠ b.id :=
    List.pairwise_map.mp (nodup_toList h)
  refine (hsorted.and hdistinct).imp ?_
  rintro a b ⟨hle, hne⟩
  refine Rule.outranks_iff.mpr (hle.lt_of_ne fun heq ↦ ?_)
  exact hne (Rule.id_eq_of_rank_eq heq.symm)

/-- The order leaves no choice: rules from the highest rank down make one list only. -/
theorem toList_eq_of_perm {s t : Store} (h : (s.entries.map Compiled.id).Nodup)
    (hperm : t.entries.Perm s.entries) : t.toList = s.toList := by
  have ht : (t.entries.map Compiled.id).Nodup :=
    (hperm.map Compiled.id).nodup_iff.mpr h
  refine (pairwise_toList ht).eq_of_mem_iff (pairwise_toList h) fun r ↦ ?_
  simp only [toList, List.mem_mergeSort, List.mem_map, hperm.mem_iff]

theorem mem_listed_iff : id ∈ s.listed ↔ s.contains id = true := by
  simp [listed, toList, contains, get?, Compiled.toRule, Compiled.id]

/-! ### Rules that are put in force or taken out -/

theorem toList_erase (h : (s.entries.map Compiled.id).Nodup) (id : String) :
    (s.erase id).toList = s.toList.filter (·.id != id) := by
  have herase := nodup_erase h id
  refine (pairwise_toList herase).eq_of_mem_iff ((pairwise_toList h).filter _) fun r ↦ ?_
  rw [mem_toList_iff herase, List.mem_filter, mem_toList_iff h, rule?, get?_erase]
  by_cases hid : id = r.id
  · simp [hid]
  · simp [hid, Ne.symm hid, rule?]

theorem listed_erase (h : (s.entries.map Compiled.id).Nodup) (id : String) :
    (s.erase id).listed = s.listed.erase id := by
  rw [listed, toList_erase h, listed, (nodup_toList h).erase_eq_filter, List.filter_map]
  rfl

/-- A rule that is put in force is listed, and apart from it the list is as before. -/
theorem listed_put (h : (s.entries.map Compiled.id).Nodup) (r : Rule) (f : Formula) :
    r.id ∈ (s.put r f).listed ∧ (s.put r f).listed.erase r.id = s.listed.erase r.id := by
  have hrest : ((s.put r f).erase r.id).entries = (s.erase r.id).entries := by
    simp [put, erase, Compiled.id]
  constructor
  · rw [mem_listed_iff, contains, get?_put_self]
    rfl
  · rw [← listed_erase (nodup_put h r f), ← listed_erase h]
    simp only [listed, toList, hrest]

theorem pairwise_ranks (h : (s.entries.map Compiled.id).Nodup) :
    (s.toList.map Rule.rank).Pairwise (· > ·) :=
  List.pairwise_map.mpr ((pairwise_toList h).imp Rule.outranks_iff.mp)

theorem mem_ranks_iff {x : ℤ ×ₗ ℕ ×ₗ String} :
    x ∈ s.toList.map Rule.rank ↔ ∃ c ∈ s.entries, c.rule.rank = x := by
  simp [toList, Compiled.toRule, Rule.rank]

/-- A rule that takes the place of one of the same rank leaves the ranks as they are, and with them
the order of the identifiers. -/
theorem listed_put_of_rank (h : (s.entries.map Compiled.id).Nodup) (hc : s.get? r.id = some c)
    (hrank : c.rule.rank = r.rank) (f : Formula) : (s.put r f).listed = s.listed := by
  have hranks : (s.put r f).toList.map Rule.rank = s.toList.map Rule.rank := by
    refine (pairwise_ranks (nodup_put h r f)).eq_of_mem_iff (pairwise_ranks h) fun x ↦ ?_
    rw [mem_ranks_iff, mem_ranks_iff]
    simp only [put, List.exists_mem_cons_iff]
    constructor
    · rintro (hx | ⟨d, hd, hx⟩)
      · exact ⟨c, (mem_of_get? hc).1, hrank.trans hx⟩
      · exact ⟨d, (List.mem_filter.mp hd).1, hx⟩
    · rintro ⟨d, hd, hx⟩
      by_cases hid : d.id = r.id
      · -- It has the identifier of the rule that was replaced, so it was that one.
        have hfound := get?_of_mem h hd
        rw [hid, hc] at hfound
        obtain rfl : c = d := Option.some.inj hfound
        exact Or.inl (hrank.symm.trans hx)
      · exact Or.inr ⟨d, List.mem_filter.mpr ⟨hd, by simpa using hid⟩, hx⟩
  have hlisted (t : Store) :
      t.listed = (t.toList.map Rule.rank).map fun x ↦ (ofLex (ofLex x).2).2 := by
    rw [List.map_map]
    rfl
  rw [hlisted, hlisted, hranks]

/-! ### The list after a run -/

/-- The second store lists the identifier, and apart from it the same as the first one; which is all
that the first one lists, if the identifier is new. -/
def Enlists (s : Store) (id : String) (s' : Store) : Prop :=
  id ∈ s'.listed ∧ s'.listed.erase id = s.listed.erase id ∧
    (id ∉ s.listed → s'.listed.erase id = s.listed)

/-- The list of a store holds each rule in force once, from the highest rank down, however the
entries are kept. An update leaves the identifiers in their places, a deletion takes out its own,
and a rule that is made puts in its own. -/
structure Listing (s : Store) : Prop where
  complete : ∀ id r, s.rule? id = some r ↔ r ∈ s.toList ∧ r.id = id
  nodup : s.listed.Nodup
  ordered : s.toList.Pairwise Rule.Outranks
  canonical : ∀ entries : List Compiled, entries.Perm s.entries →
    (⟨s.compiler, entries⟩ : Store).toList = s.toList
  update : ∀ now id text description r s', s.update now id text description = .ok (r, s') →
    s'.listed = s.listed
  delete : ∀ id r s', s.delete id = .ok (r, s') →
    id ∈ s.listed ∧ s'.listed = s.listed.erase id
  create : ∀ id now text description r s', s.create id now text description = .ok (r, s') →
    s.Enlists id s'
  combine : ∀ id now members r s', s.combine id now members = .ok (r, s') →
    s.Enlists id s'

theorem enlists_create (h : (s.entries.map Compiled.id).Nodup) {now : Instant}
    {text description : String} (hcreate : s.create id now text description = .ok (r, s')) :
    s.Enlists id s' := by
  obtain ⟨f, -, -, rfl⟩ := create_eq_ok_iff.mp hcreate
  obtain ⟨hmem, hrest⟩ := listed_put h ⟨id, Text.trim text, description, none, now, now⟩ f
  exact ⟨hmem, hrest, fun hnew ↦ hrest.trans (List.erase_of_not_mem hnew)⟩

/-- Whatever calls were made on an empty store, its list is complete and in the one order that ranks
allow, and later calls change it at their own identifiers only. -/
theorem listing_run (limits : Limits) (calls : List Call) : (run limits calls).Listing := by
  have h := nodup_run limits calls
  refine ⟨fun id r ↦ ?_, nodup_toList h, pairwise_toList h, fun entries ↦ ?_, ?_, ?_,
    fun _ _ _ _ _ _ ↦ enlists_create h, ?_⟩
  · rw [mem_toList_iff h]
    constructor
    · intro hrule
      obtain ⟨c, hc, rfl⟩ := Option.map_eq_some_iff.mp hrule
      obtain rfl : c.rule.id = id := (mem_of_get? hc).2
      exact ⟨hrule, rfl⟩
    · rintro ⟨hrule, rfl⟩
      exact hrule
  · exact toList_eq_of_perm (t := ⟨_, entries⟩) h
  · intro now id text description r s' hupdate
    obtain ⟨c, hc, f, -, -, rfl⟩ := update_eq_ok_iff.mp hupdate
    obtain rfl : c.rule.id = id := (mem_of_get? hc).2
    exact listed_put_of_rank (r := updated c now text description) h hc rfl f
  · intro id r s' hdelete
    obtain ⟨c, hc, -, rfl⟩ := delete_eq_ok_iff.mp hdelete
    exact ⟨mem_listed_iff.mpr (contains_eq_true_iff.mpr ⟨c, hc⟩), listed_erase h id⟩
  · intro id now members r s' hcombine
    obtain ⟨_, text, description, _, _, hcreate⟩ := exists_create_of_combine hcombine
    exact enlists_create h hcreate

/-- The latest rule comes first, and of two rules of one moment the one with the greater
identifier. -/
example (f : Formula) :
    (⟨.ofLimits .standard, [⟨⟨"b", "", "", none, ⟨5, 0⟩, ⟨5, 0⟩⟩, f, 3⟩,
      ⟨⟨"a", "", "", none, ⟨5, 1⟩, ⟨7, 0⟩⟩, f, 1⟩, ⟨⟨"c", "", "", none, ⟨5, 0⟩, ⟨6, 0⟩⟩, f, 2⟩]⟩ :
        Store).listed = ["a", "c", "b"] := by
  cbv

end Store

end Criteria
