/-
  VIEWS OF A TREE: what stands at each path of a part of it, and what a system call does to that.

  A tree is compared through `get` only, so what a program KNOWS of a tree is a function from paths
  to nodes: `t.on R` is the tree as it is seen inside the region `R`.  Two operations are enough to
  describe what system calls do to it:

  * `sub p` looks at the part from `p` downwards, and
  * `graft p s` replaces everything at and below `p` by `s`.

  Making an entry grafts a `leaf`, removing one grafts `nothing`, and a rename grafts `nothing` at the
  source and the old `sub` of the source at the target (`on_make`, `on_remove`, `on_rename`).  So the
  effect of a whole program is an equation between parts, and such equations are proved by the few
  laws of `graft` and `sub` below.
-/
import SmtpCloudRelay.Lib.Disk

namespace Lib

open List

/-- A part of a tree: what stands at its paths, counted from the part's own root. -/
abbrev View (ν : Type) := List ν → Option Node

/-- Two paths of which none is below the other. -/
def Apart {ν : Type} (p q : List ν) : Prop := ¬ p <+: q ∧ ¬ q <+: p

theorem Apart.symm {ν : Type} {p q : List ν} (h : Apart p q) : Apart q p := ⟨h.2, h.1⟩

/-- Nothing is below both of two paths that are apart. -/
theorem Apart.not_below {ν : Type} {p q x : List ν} (h : Apart p q) (hp : p <+: x) : ¬ q <+: x := by
  intro hq
  rcases prefix_or_prefix_of_prefix hp hq with hpq | hqp
  · exact h.1 hpq
  · exact h.2 hqp

theorem Apart.below {ν : Type} {p q p' q' : List ν} (h : Apart p q) (hp : p <+: p') (hq : q <+: q') :
    Apart p' q' :=
  ⟨fun hx => h.not_below (hp.trans hx) hq, fun hx => h.symm.not_below (hq.trans hx) hp⟩

/-- Different entries of one directory are apart. -/
theorem apart_of_ne {ν : Type} {d : List ν} {m n : ν} (h : m ≠ n) : Apart (d ++ [m]) (d ++ [n]) := by
  have hnot : ∀ a b : ν, a ≠ b → ¬ d ++ [a] <+: d ++ [b] := by
    intro a b hab hx
    have hab' : [a] <+: [b] := (prefix_append_right_inj d).mp hx
    simp only [cons_prefix_cons, nil_prefix, and_true] at hab'
    exact hab hab'
  exact ⟨hnot m n h, hnot n m h.symm⟩

namespace View

variable {ν : Type}

/-- The empty part. -/
def nothing : View ν := fun _ => none

/-- A single node with nothing below it. -/
def leaf (k : Node) : View ν
  | [] => some k
  | _ :: _ => none

/-- The part from `p` downwards. -/
def sub (t : View ν) (p : List ν) : View ν := fun q => t (p ++ q)

@[simp] theorem sub_apply (t : View ν) (p q : List ν) : t.sub p q = t (p ++ q) := rfl

theorem sub_nil (t : View ν) (p : List ν) : t.sub p [] = t p := congrArg t (append_nil p)

theorem root_of_sub {t u : View ν} {p : List ν} (h : t.sub p = u) : t p = u [] :=
  (sub_nil t p).symm.trans (congrFun h [])

theorem sub_sub (t : View ν) (p q : List ν) : (t.sub p).sub q = t.sub (p ++ q) := by
  funext x
  simp

variable [DecidableEq ν]

/-- Everything at and below `p` replaced by `s`. -/
def graft (t : View ν) (p : List ν) (s : View ν) : View ν :=
  fun q => if p <+: q then s (q.drop p.length) else t q

@[simp] theorem graft_append (t s : View ν) (p q : List ν) : t.graft p s (p ++ q) = s q := by
  unfold graft
  rw [if_pos (prefix_append _ _), drop_left]

@[simp] theorem graft_self (t s : View ν) (p : List ν) : t.graft p s p = s [] := by
  have h := graft_append t s p []
  rwa [append_nil] at h

variable {s : View ν} {p q : List ν} {N : ν → Prop} {n : ν}

theorem graft_other {t : View ν} (h : ¬ p <+: q) : t.graft p s q = t q := if_neg h

@[simp] theorem graft_nil (t s : View ν) : t.graft [] s = s := by
  funext q
  exact graft_append t s [] q

@[simp] theorem sub_graft (t s : View ν) (p : List ν) : (t.graft p s).sub p = s := by
  funext q
  exact graft_append t s p q

@[simp] theorem graft_sub (t : View ν) (p : List ν) : t.graft p (t.sub p) = t := by
  funext q
  by_cases h : p <+: q
  · obtain ⟨x, rfl⟩ := h
    exact graft_append t _ p x
  · exact graft_other h

/-- Grafting what is there changes nothing. -/
theorem graft_of_sub {t : View ν} (h : t.sub p = s) : t.graft p s = t := by
  rw [← h, graft_sub]

theorem graft_below (t s u : View ν) (p q : List ν) :
    (t.graft p s).graft (p ++ q) u = t.graft p (s.graft q u) := by
  funext x
  by_cases hp : p <+: x
  · obtain ⟨y, rfl⟩ := hp
    rw [graft_append]
    by_cases hq : q <+: y
    · obtain ⟨z, rfl⟩ := hq
      rw [graft_append, ← append_assoc, graft_append]
    · have hpq : ¬ p ++ q <+: p ++ y := fun h => hq ((prefix_append_right_inj p).mp h)
      rw [graft_other hpq, graft_other hq, graft_append]
  · have hpq : ¬ p ++ q <+: x := fun h => hp ((prefix_append _ _).trans h)
    rw [graft_other hpq, graft_other hp, graft_other hp]

@[simp] theorem graft_graft (t s u : View ν) (p : List ν) : (t.graft p s).graft p u = t.graft p u := by
  have h := graft_below t s u p []
  rwa [append_nil, graft_nil] at h

/-- A graft does not show elsewhere. -/
theorem sub_graft_apart {t : View ν} (h : Apart p q) : (t.graft p s).sub q = t.sub q := by
  funext x
  exact graft_other (h.symm.not_below (prefix_append q x))

theorem graft_apart {t u : View ν} (h : Apart p q) :
    (t.graft p s).graft q u = (t.graft q u).graft p s := by
  funext x
  by_cases hp : p <+: x
  · have hq := h.not_below hp
    obtain ⟨y, rfl⟩ := hp
    rw [graft_other hq, graft_append, graft_append]
  · rw [graft_other hp]
    by_cases hq : q <+: x
    · obtain ⟨y, rfl⟩ := hq
      rw [graft_append, graft_append]
    · rw [graft_other hq, graft_other hq, graft_other hp]

theorem sub_graft_below (t s : View ν) (p q : List ν) : (t.graft p s).sub (p ++ q) = s.sub q := by
  rw [← sub_sub, sub_graft]

theorem sub_graft_above (t s : View ν) (p q : List ν) :
    (t.graft (p ++ q) s).sub p = (t.sub p).graft q s := by
  have h := graft_below t (t.sub p) s p q
  rw [graft_sub] at h
  rw [h, sub_graft]

/-- A graft, seen from above. -/
theorem graft_append_path (t s : View ν) (p q : List ν) :
    t.graft (p ++ q) s = t.graft p ((t.sub p).graft q s) := by
  have h := graft_below t (t.sub p) s p q
  rwa [graft_sub] at h

theorem graft_above (t s u : View ν) (p q : List ν) :
    (t.graft (p ++ q) s).graft p u = t.graft p u := by
  rw [graft_append_path, graft_graft]

/-! ## A directory with some of its entries -/

open Classical in
/-- A directory of which only the entries with a name in `N` are there. -/
noncomputable def keep (s : View ν) (N : ν → Prop) : View ν
  | [] => some .dir
  | n :: q => if N n then s (n :: q) else none

omit [DecidableEq ν] in
theorem keep_pos (h : N n) (q : List ν) : s.keep N (n :: q) = s (n :: q) := if_pos h

omit [DecidableEq ν] in
theorem keep_neg (h : ¬ N n) (q : List ν) : s.keep N (n :: q) = none := if_neg h

omit [DecidableEq ν] in
theorem keep_congr {N' : ν → Prop} (h : ∀ n, N n ↔ N' n) : s.keep N = s.keep N' := by
  have hN : N = N' := funext fun n => propext (h n)
  rw [hN]

omit [DecidableEq ν] in
theorem keep_none (h : ∀ n q, N n → s (n :: q) = none) : s.keep N = leaf .dir := by
  funext q
  cases q with
  | nil => rfl
  | cons n q =>
    by_cases hn : N n
    · rw [keep_pos hn, h n q hn]
      rfl
    · exact keep_neg hn q

omit [DecidableEq ν] in
theorem keep_all (hdir : s [] = some .dir) (h : ∀ n q, s (n :: q) ≠ none → N n) : s.keep N = s := by
  funext q
  cases q with
  | nil => exact hdir.symm
  | cons n q =>
    by_cases hn : N n
    · exact keep_pos hn q
    · have hnone : s (n :: q) = none := by
        by_contra hne
        exact hn (h n q hne)
      rw [keep_neg hn, hnone]

omit [DecidableEq ν] in
/-- An entry that is not there. -/
theorem sub_keep (h : ¬ N n) : (s.keep N).sub [n] = nothing := by
  funext q
  exact keep_neg h q

/-- The paths that do not lead to an entry are the directory itself and those to other entries. -/
theorem graft_entry {u : View ν} (h : ¬ [n] <+: q) :
    s.graft [n] u q = s q ∧ ∀ m x, q = m :: x → m ≠ n := by
  refine ⟨graft_other h, ?_⟩
  rintro m x rfl rfl
  exact h ⟨x, rfl⟩

theorem keep_insert (s : View ν) (N : ν → Prop) (n : ν) :
    (s.keep N).graft [n] (s.sub [n]) = s.keep fun m => N m ∨ m = n := by
  funext q
  by_cases h : [n] <+: q
  · obtain ⟨y, rfl⟩ := h
    rw [graft_append]
    exact (keep_pos (N := fun m => N m ∨ m = n) (Or.inr rfl) y).symm
  · obtain ⟨hq, hne⟩ := graft_entry (s := s.keep N) (u := s.sub [n]) h
    rw [hq]
    cases q with
    | nil => rfl
    | cons m y =>
      have hmn := hne m y rfl
      by_cases hm : N m
      · rw [keep_pos hm, keep_pos (N := fun m => N m ∨ m = n) (Or.inl hm)]
      · rw [keep_neg hm, keep_neg (N := fun m => N m ∨ m = n) fun hx => hx.elim hm hmn]

theorem keep_remove (s : View ν) (N : ν → Prop) (n : ν) :
    (s.keep N).graft [n] nothing = s.keep fun m => N m ∧ m ≠ n := by
  funext q
  by_cases h : [n] <+: q
  · obtain ⟨y, rfl⟩ := h
    rw [graft_append]
    exact (keep_neg (N := fun m => N m ∧ m ≠ n) (fun hx => hx.2 rfl) y).symm
  · obtain ⟨hq, hne⟩ := graft_entry (s := s.keep N) (u := nothing) h
    rw [hq]
    cases q with
    | nil => rfl
    | cons m y =>
      have hmn := hne m y rfl
      by_cases hm : N m
      · rw [keep_pos hm, keep_pos (N := fun m => N m ∧ m ≠ n) ⟨hm, hmn⟩]
      · rw [keep_neg hm, keep_neg (N := fun m => N m ∧ m ≠ n) fun hx => hm hx.1]

end View

/-! ## A tree, seen in a region -/

namespace Files

variable {ν : Type} {R : List ν → Prop}

/-- The region is seen whole below `p`. -/
def Seen (R : List ν → Prop) (p : List ν) : Prop := ∀ q, p <+: q → R q

variable {p d : List ν} {n : ν}

theorem Seen.self (h : Seen R p) : R p := h p (prefix_refl p)

theorem Seen.append (h : Seen R p) (q : List ν) : Seen R (p ++ q) :=
  fun x hx => h x ((prefix_append p q).trans hx)

variable [DecidableEq ν] {t t' : Files ν}

open Classical in
/-- The tree as it is seen inside a region. -/
noncomputable def on (t : Files ν) (R : List ν → Prop) : View ν := fun q => if R q then t.get q else none

theorem on_of {q : List ν} (h : R q) : t.on R q = t.get q := if_pos h

theorem on_append (h : Seen R p) (q : List ν) : t.on R (p ++ q) = t.get (p ++ q) :=
  on_of (h _ (prefix_append p q))

theorem on_congr (h : ∀ q, R q → t'.get q = t.get q) : t'.on R = t.on R := by
  funext q
  by_cases hq : R q
  · rw [on_of hq, on_of hq]
    exact h q hq
  · rw [on, on, if_neg hq, if_neg hq]

/-- A tree that differs from another at and below `p` only. -/
theorem on_graft {s : View ν} (hR : Seen R p) (hin : ∀ q, t'.get (p ++ q) = s q)
    (hout : ∀ q, ¬ p <+: q → t'.get q = t.get q) : t'.on R = (t.on R).graft p s := by
  funext q
  by_cases hq : p <+: q
  · obtain ⟨x, rfl⟩ := hq
    rw [View.graft_append, on_append hR]
    exact hin x
  · rw [View.graft_other hq]
    unfold on
    rw [hout q hq]

/-- Nothing is seen below what is not a directory. -/
theorem on_below {q : List ν} (hR : Seen R p) (h : t.on R p ≠ some .dir) (hq : q ≠ []) :
    t.on R (p ++ q) = none := by
  rw [on_of hR.self] at h
  rw [on_append hR]
  exact get_below h q hq

theorem sub_on_none (hR : Seen R p) (h : t.on R p = none) : (t.on R).sub p = View.nothing := by
  funext q
  cases q with
  | nil => exact (View.sub_nil ..).trans h
  | cons n q =>
    exact on_below hR (by rw [h]; exact nofun) (cons_ne_nil n q)

/-- A file is seen as a leaf. -/
theorem sub_on_leaf {k : Node} (hR : Seen R p) (h : t.on R p = some k) (hk : k ≠ .dir) :
    (t.on R).sub p = View.leaf k := by
  funext q
  cases q with
  | nil => exact (View.sub_nil ..).trans h
  | cons n q =>
    exact on_below hR (by rw [h]; exact fun hx => hk (Option.some.inj hx)) (cons_ne_nil n q)

/-- An entry that is not there has nothing below it. -/
theorem on_entry_none (hR : Seen R p) (h : t.on R (p ++ [n]) = none) (q : List ν) :
    t.on R (p ++ n :: q) = none := by
  have hx : t.on R (p ++ [n] ++ q) = none := congrFun (sub_on_none (hR.append [n]) h) q
  rwa [append_assoc, singleton_append] at hx

theorem mem_children_on (hR : Seen R p) : n ∈ t.children p ↔ t.on R (p ++ [n]) ≠ none := by
  rw [mem_children, on_append hR]

/-! ## What the system calls do to it -/

theorem on_make {k : Node} (h : t.make d n k = .ok t') (hR : Seen R (d ++ [n])) :
    (t.on R).sub (d ++ [n]) = View.nothing ∧ t'.on R = (t.on R).graft (d ++ [n]) (View.leaf k) := by
  obtain ⟨hnone, hget⟩ := make_ok h
  have hview : t.on R (d ++ [n]) = none := by
    rw [on_of hR.self]
    exact hnone
  have hsub := sub_on_none hR hview
  refine ⟨hsub, on_graft hR (fun q => ?_) fun q hq => ?_⟩
  · rw [hget]
    cases q with
    | nil => simp [View.leaf]
    | cons m q =>
      have hx := congrFun hsub (m :: q)
      rw [View.sub_apply, on_append hR] at hx
      rw [if_neg (by simp)]
      exact hx
  · rw [hget]
    exact if_neg (by rintro rfl; exact hq (prefix_refl _))

theorem on_write {old data : List UInt8} (h : t.append d n data = .ok t') (hR : Seen R (d ++ [n]))
    (hold : (t.on R).sub (d ++ [n]) = View.leaf (.file old)) :
    t'.on R = (t.on R).graft (d ++ [n]) (View.leaf (.file (old ++ data))) := by
  obtain ⟨old', hget', hget⟩ := append_ok h
  have hsub : ∀ q, t.get (d ++ [n] ++ q) = View.leaf (.file old) q := by
    intro q
    rw [← hold, View.sub_apply, on_append hR]
  have hsame : old' = old := by
    have hx := hsub []
    rw [append_nil, hget'] at hx
    simpa [View.leaf] using hx
  subst hsame
  refine on_graft hR (fun q => ?_) fun q hq => ?_
  · rw [hget]
    cases q with
    | nil => simp [View.leaf]
    | cons m q => simpa [View.leaf] using hsub (m :: q)
  · rw [hget]
    exact if_neg (by rintro rfl; exact hq (prefix_refl _))

/-- Removing an entry that has nothing below it: what `unlink` and `rmdir` do. -/
theorem on_remove (hget : ∀ q, t'.get q = if d ++ [n] = q then none else t.get q)
    (hR : Seen R (d ++ [n])) : t'.on R = (t.on R).graft (d ++ [n]) View.nothing := by
  have hself : t'.get (d ++ [n]) = none := by rw [hget, if_pos rfl]
  refine on_graft hR (fun q => ?_) fun q hq => ?_
  · cases q with
    | nil =>
      rw [append_nil]
      exact hself
    | cons m q =>
      exact get_below (by rw [hself]; exact nofun) _ (cons_ne_nil m q)
  · rw [hget]
    exact if_neg (by rintro rfl; exact hq (prefix_refl _))

theorem on_rename {sd dd : List ν} {sn dn : ν} (h : t.rename sd sn dd dn = .ok t')
    (hs : Seen R (sd ++ [sn])) (hd : Seen R (dd ++ [dn])) :
    t.on R (sd ++ [sn]) ≠ none ∧
    ((sd ++ [sn] = dd ++ [dn] ∧ t' = t) ∨
      (Apart (sd ++ [sn]) (dd ++ [dn]) ∧
        t'.on R = ((t.on R).graft (sd ++ [sn]) View.nothing).graft (dd ++ [dn])
          ((t.on R).sub (sd ++ [sn])))) := by
  obtain ⟨hsrc, hcase⟩ := rename_ok h
  refine ⟨by rwa [on_of hs.self], hcase.imp_right ?_⟩
  rintro ⟨hsd, hds, hget⟩
  have hap : Apart (sd ++ [sn]) (dd ++ [dn]) := ⟨hsd, hds⟩
  refine ⟨hap, ?_⟩
  funext q
  by_cases hq : dd ++ [dn] <+: q
  · obtain ⟨x, rfl⟩ := hq
    rw [View.graft_append, View.sub_apply, on_append hd, on_append hs, hget,
      if_pos (prefix_append _ _), drop_left]
  · rw [View.graft_other hq]
    by_cases hq' : sd ++ [sn] <+: q
    · obtain ⟨x, rfl⟩ := hq'
      rw [View.graft_append, on_append hs, hget, if_neg hq, if_pos (prefix_append _ _)]
      rfl
    · rw [View.graft_other hq']
      unfold on
      rw [hget, if_neg hq, if_neg hq']

end Files

end Lib
