/-
  DIRECTORY TREES, flat: a file tree is the finite map from paths to what stands there.

  A path is the list of names from the root down.  The tree carries its own well-formedness: an
  entry exists only below a directory (`wf`), so an orphaned file cannot be represented and a
  freshly made directory is EMPTY without anybody proving it.  The operations are the effects
  of the system calls that succeed — `put` (mkdir, create, write), `del` (unlink, rmdir), `move`
  (rename of a file or of a whole directory) — each taking the precondition under which the
  kernel performs it as an argument.

  Trees are compared through `get` only.  The four equations `get_put`, `get_del`, `get_move` and
  `mem_children` are all that clients use; the association list behind them never shows.
-/
import Mathlib.Data.List.Dedup
import Mathlib.Data.List.Infix

namespace Lib

/-- Error numbers. -/
inductive Errno where
  | enoent
  | eexist
  | exdev
  | eloop
  | enotdir
  | enotempty
  | eisdir
  | einval
  | enxio
  | other (text : List UInt8)
  deriving DecidableEq

/-- What becomes of an open for reading of a special file: it opens (a device), it refuses (a socket,
    with ENXIO), or it keeps the caller waiting (a FIFO that nobody writes to). -/
inductive Opening where
  | opens
  | refuses (e : Errno)
  | waits
  deriving DecidableEq

/-- What stands at a path: a regular file with its bytes, a directory, a symbolic link, or a special
    file. -/
inductive Node where
  | file (data : List UInt8)
  | dir
  | symlink
  | special (opening : Opening)
  deriving DecidableEq

namespace Files

variable {ν : Type} [DecidableEq ν]

/-- First match in an association list from paths to nodes. -/
def lookup : List (List ν × Node) → List ν → Option Node
  | [], _ => none
  | (q, k) :: es, p => if q = p then some k else lookup es p

end Files

open Files in
/-- A well-formed tree of named entries. -/
structure Files (ν : Type) [DecidableEq ν] where
  /-- The entries, newest first. -/
  entries : List (List ν × Node)
  /-- What exists, exists in a directory. -/
  wf : ∀ p n, lookup entries (p ++ [n]) ≠ none → lookup entries p = some .dir

namespace Files

variable {ν : Type} [DecidableEq ν]

/-- What stands at path `p`, if anything. -/
def get (t : Files ν) (p : List ν) : Option Node := lookup t.entries p

variable {t : Files ν} {p : List ν}

theorem get_parent {n : ν} (h : t.get (p ++ [n]) ≠ none) : t.get p = some .dir :=
  t.wf p n h

/-- Nothing exists below a path that is not a directory. -/
theorem get_below (h : t.get p ≠ some .dir) : ∀ q, q ≠ [] → t.get (p ++ q) = none := by
  intro q
  induction q using List.reverseRecOn with
  | nil => intro hq; exact absurd rfl hq
  | append_singleton q n ih =>
    intro _
    by_contra hne
    rw [← List.append_assoc] at hne
    have hdir : t.get (p ++ q) = some .dir := get_parent hne
    by_cases hq : q = []
    · subst hq
      exact h (by simpa using hdir)
    · rw [ih hq] at hdir
      nomatch hdir

/-! ## Making and overwriting one entry -/

theorem lookup_cons (es : List (List ν × Node)) (q : List ν) (k : Node) (p : List ν) :
    lookup ((q, k) :: es) p = if q = p then some k else lookup es p := rfl

/-- Put `k` at `p ++ [n]`: the parent is a directory, and no directory is overwritten by
    something else. -/
def put (t : Files ν) (p : List ν) (n : ν) (k : Node) (hp : t.get p = some .dir)
    (hk : t.get (p ++ [n]) = some .dir → k = .dir) : Files ν where
  entries := (p ++ [n], k) :: t.entries
  wf := by
    intro q m h
    rw [lookup_cons] at h ⊢
    have hself : p ++ [n] ≠ p := by simp
    by_cases hqm : p ++ [n] = q ++ [m]
    · obtain ⟨rfl, -⟩ := List.append_inj' hqm rfl
      rw [if_neg hself]
      exact hp
    · rw [if_neg hqm] at h
      have hq := t.wf q m h
      by_cases hpq : p ++ [n] = q
      · rw [if_pos hpq, hk (by rw [hpq]; exact hq)]
      · rw [if_neg hpq]
        exact hq

theorem get_put (t : Files ν) (p : List ν) (n : ν) (k : Node) (hp hk) (q : List ν) :
    (t.put p n k hp hk).get q = if p ++ [n] = q then some k else t.get q := rfl

/-! ## Removing one entry -/

/-- Drop every binding of `p`. -/
def erase (es : List (List ν × Node)) (p : List ν) : List (List ν × Node) :=
  es.filter fun e => e.1 ≠ p

theorem lookup_erase (es : List (List ν × Node)) (p q : List ν) :
    lookup (erase es p) q = if p = q then none else lookup es q := by
  induction es with
  | nil => simp [erase, lookup]
  | cons e es ih =>
    obtain ⟨e, k⟩ := e
    by_cases he : e = p
    · have : erase ((e, k) :: es) p = erase es p := by simp [erase, he]
      rw [this, ih, lookup_cons]
      by_cases hpq : p = q
      · rw [if_pos hpq, if_pos hpq]
      · rw [if_neg hpq, if_neg hpq, if_neg (he ▸ hpq)]
    · have : erase ((e, k) :: es) p = (e, k) :: erase es p := by simp [erase, he]
      rw [this, lookup_cons, lookup_cons, ih]
      by_cases heq : e = q
      · have hpq : p ≠ q := fun h => he (heq.trans h.symm)
        rw [if_pos heq, if_neg hpq, if_pos heq]
      · rw [if_neg heq, if_neg heq]

/-- Remove the entry at `p`, which has nothing below it. -/
def del (t : Files ν) (p : List ν) (h : ∀ n, t.get (p ++ [n]) = none) : Files ν where
  entries := erase t.entries p
  wf := by
    intro q m hq
    rw [lookup_erase] at hq ⊢
    by_cases hpm : p = q ++ [m]
    · rw [if_pos hpm] at hq
      exact absurd rfl hq
    · rw [if_neg hpm] at hq
      have hne : p ≠ q := by
        rintro rfl
        exact hq (h m)
      rw [if_neg hne]
      exact t.wf q m hq

theorem get_del (t : Files ν) (p : List ν) (h : ∀ n, t.get (p ++ [n]) = none) (q : List ν) :
    (t.del p h).get q = if p = q then none else t.get q :=
  lookup_erase t.entries p q

/-! ## Moving a whole subtree -/

/-- Rename bindings below `src` to `dst`, and drop what stood below `dst`. -/
def relocate (es : List (List ν × Node)) (src dst : List ν) : List (List ν × Node) :=
  es.filterMap fun e =>
    if dst <+: e.1 then none
    else if src <+: e.1 then some (dst ++ e.1.drop src.length, e.2)
    else some e

theorem lookup_relocate {src dst : List ν} (hsd : ¬ src <+: dst) (hds : ¬ dst <+: src)
    (es : List (List ν × Node)) (q : List ν) :
    lookup (relocate es src dst) q =
      if dst <+: q then lookup es (src ++ q.drop dst.length)
      else if src <+: q then none
      else lookup es q := by
  -- the two subtrees are disjoint: one is not below the other
  have hdisj : ∀ p, src <+: p → ¬ dst <+: p := by
    intro p hs hd
    rcases List.prefix_or_prefix_of_prefix hs hd with h | h
    · exact hsd h
    · exact hds h
  have hback : ∀ p, src <+: p → src ++ p.drop src.length = p := by
    rintro p ⟨s, rfl⟩
    simp
  induction es with
  | nil => simp [relocate, lookup]
  | cons e es ih =>
    obtain ⟨e, k⟩ := e
    by_cases hde : dst <+: e
    · have hrel : relocate ((e, k) :: es) src dst = relocate es src dst := by
        simp [relocate, hde]
      have hes : ¬ src <+: e := fun h => hdisj e h hde
      rw [hrel, ih]
      by_cases hdq : dst <+: q
      · rw [if_pos hdq, if_pos hdq, lookup_cons, if_neg]
        rintro rfl
        exact hes ⟨_, rfl⟩
      · rw [if_neg hdq, if_neg hdq]
        by_cases hsq : src <+: q
        · rw [if_pos hsq, if_pos hsq]
        · rw [if_neg hsq, if_neg hsq, lookup_cons, if_neg]
          rintro rfl
          exact hdq hde
    · by_cases hse : src <+: e
      · have hrel : relocate ((e, k) :: es) src dst
            = (dst ++ e.drop src.length, k) :: relocate es src dst := by
          simp [relocate, hde, hse]
        rw [hrel, lookup_cons, ih]
        by_cases hdq : dst <+: q
        · rw [if_pos hdq, if_pos hdq, lookup_cons]
          obtain ⟨s, rfl⟩ := hdq
          obtain ⟨u, rfl⟩ := hse
          simp
        · have hne : ¬ dst ++ e.drop src.length = q := fun h => hdq ⟨_, h⟩
          rw [if_neg hne, if_neg hdq, if_neg hdq]
          by_cases hsq : src <+: q
          · rw [if_pos hsq, if_pos hsq]
          · rw [if_neg hsq, if_neg hsq, lookup_cons, if_neg]
            rintro rfl
            exact hsq hse
      · have hrel : relocate ((e, k) :: es) src dst = (e, k) :: relocate es src dst := by
          simp [relocate, hde, hse]
        rw [hrel, lookup_cons, ih]
        by_cases heq : e = q
        · subst heq
          rw [if_pos rfl, if_neg hde, if_neg hse, lookup_cons, if_pos rfl]
        · rw [if_neg heq]
          by_cases hdq : dst <+: q
          · rw [if_pos hdq, if_pos hdq, lookup_cons, if_neg]
            rintro rfl
            exact hse ⟨_, rfl⟩
          · rw [if_neg hdq, if_neg hdq]
            by_cases hsq : src <+: q
            · rw [if_pos hsq, if_pos hsq]
            · rw [if_neg hsq, if_neg hsq, lookup_cons, if_neg heq]

/-- When a subtree may be moved: source and target are not below one another, and the target's
    parent is a directory. -/
structure CanMove (t : Files ν) (src dst : List ν) (n : ν) : Prop where
  apart : ¬ src <+: dst ++ [n]
  apart' : ¬ dst ++ [n] <+: src
  parent : t.get dst = some .dir

/-- Move everything at and below `src` to `dst ++ [n]`. -/
def move (t : Files ν) (src dst : List ν) (n : ν) (h : t.CanMove src dst n) : Files ν where
  entries := relocate t.entries src (dst ++ [n])
  wf := by
    intro p m hp
    rw [lookup_relocate h.apart h.apart'] at hp ⊢
    by_cases hd : dst ++ [n] <+: p ++ [m]
    · rw [if_pos hd] at hp
      rcases List.prefix_concat_iff.mp hd with heq | hpre
      · -- the moved entry itself: its new parent is the target directory
        obtain ⟨rfl, -⟩ := List.append_inj' heq rfl
        have hnd : ¬ dst ++ [n] <+: dst := fun hx => by
          have := hx.length_le
          rw [List.length_append, List.length_singleton] at this
          omega
        have hns : ¬ src <+: dst := fun hx => h.apart (hx.trans (List.prefix_append _ _))
        rw [if_neg hnd, if_neg hns]
        exact h.parent
      · -- an entry below it: moved together with its parent
        obtain ⟨s, rfl⟩ := hpre
        have hl : (dst ++ [n] ++ s ++ [m]).drop (dst ++ [n]).length = s ++ [m] := by
          rw [List.append_assoc (dst ++ [n]), List.drop_left]
        have hl' : (dst ++ [n] ++ s).drop (dst ++ [n]).length = s := List.drop_left
        rw [if_pos (List.prefix_append _ _), hl']
        rw [hl, ← List.append_assoc] at hp
        exact t.wf _ _ hp
    · rw [if_neg hd] at hp
      have hdp : ¬ dst ++ [n] <+: p := fun hx => hd (hx.trans (List.prefix_append _ _))
      by_cases hs : src <+: p ++ [m]
      · rw [if_pos hs] at hp
        exact absurd rfl hp
      · rw [if_neg hs] at hp
        have hsp : ¬ src <+: p := fun hx => hs (hx.trans (List.prefix_append _ _))
        rw [if_neg hdp, if_neg hsp]
        exact t.wf p m hp

theorem get_move (t : Files ν) (src dst : List ν) (n : ν) (h : t.CanMove src dst n) (q : List ν) :
    (t.move src dst n h).get q =
      if dst ++ [n] <+: q then t.get (src ++ q.drop (dst ++ [n]).length)
      else if src <+: q then none
      else t.get q :=
  lookup_relocate h.apart h.apart' t.entries q

/-! ## Listing a directory -/

/-- The names in directory `p`, each once. -/
def children (t : Files ν) (p : List ν) : List ν :=
  (t.entries.filterMap fun e =>
    if e.1.dropLast = p then e.1.getLast? else none).dedup

theorem lookup_ne_none {es : List (List ν × Node)} : lookup es p ≠ none ↔ ∃ k, (p, k) ∈ es := by
  induction es with
  | nil => simp [lookup]
  | cons e es ih =>
    obtain ⟨e, k⟩ := e
    rw [lookup_cons]
    by_cases he : e = p
    · simp [he]
    · rw [if_neg he, ih]
      have hpe : p ≠ e := fun h => he h.symm
      simp [hpe]

theorem mem_children {n : ν} : n ∈ t.children p ↔ t.get (p ++ [n]) ≠ none := by
  unfold children get
  rw [List.mem_dedup, lookup_ne_none, List.mem_filterMap]
  constructor
  · rintro ⟨⟨e, k⟩, he, hn⟩
    by_cases hd : e.dropLast = p
    · rw [if_pos hd] at hn
      have hne : e ≠ [] := by
        rintro rfl
        simp at hn
      rw [List.getLast?_eq_some_getLast hne] at hn
      have hlast : e.getLast hne = n := Option.some.inj hn
      refine ⟨k, ?_⟩
      rw [← hd, ← hlast, List.dropLast_append_getLast hne]
      exact he
    · rw [if_neg hd] at hn
      nomatch hn
  · rintro ⟨k, hk⟩
    exact ⟨_, hk, by simp⟩

theorem children_nodup (t : Files ν) (p : List ν) : (t.children p).Nodup := List.nodup_dedup _

/-- An empty listing means that nothing is below. -/
theorem children_eq_nil : t.children p = [] ↔ ∀ n, t.get (p ++ [n]) = none := by
  rw [List.eq_nil_iff_forall_not_mem]
  exact forall_congr' fun n => by rw [mem_children, not_not]

end Files

end Lib
