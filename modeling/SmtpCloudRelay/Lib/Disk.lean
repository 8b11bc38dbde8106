/-
  SYSTEM CALLS ON A DIRECTORY TREE, with everything that can go wrong.

  A `Call` is one system call of a program that works with directories: it is atomic, and what it
  does is determined by the tree and by a choice of the outside world.  `go` performs it as the
  kernel would (it succeeds, or fails with the error number that the tree demands); `fault e` makes
  it fail with any error number and without effect; `wrote k e` is a write that stores `k` bytes and
  then fails; `names l` lists a directory in the order `l`, since a directory has no order of its own.
  A call that is never answered, like the open of a FIFO, has no outcome under `go`.

  Calls name their place by the directory's path and the entry's name, the way `openat`, `mkdirat`
  and `renameat` do.  Calls that leave the tree as it is and only succeed or fail (fsync, fchmod,
  close) are all `quiet`.

  What is known of a call in general is that it changes only what it `Touches` (`perform_frame`).
-/
import SmtpCloudRelay.Lib.Files

namespace Lib

/-- The type of an entry, as `fstatat` tells it. -/
inductive Kind where
  | dir
  | reg
  | other
  deriving DecidableEq

/-- The type of a node. -/
def Node.kind : Node → Kind
  | .dir => .dir
  | .file _ => .reg
  | .symlink => .other
  | .special _ => .other

variable {ν : Type} [DecidableEq ν]

/-! ## What the kernel does -/

namespace Files

/-- Why `d` is not the path of a directory. -/
def notDir (t : Files ν) (d : List ν) : Errno := if t.get d = none then .enoent else .enotdir

/-- Make a new entry: mkdir, or open with O_CREAT and O_EXCL. -/
def make (t : Files ν) (d : List ν) (n : ν) (k : Node) : Except Errno (Files ν) :=
  if hd : t.get d = some .dir then
    if hn : t.get (d ++ [n]) = none then .ok (t.put d n k hd (by simp [hn])) else .error .eexist
  else .error (t.notDir d)

/-- Append bytes to a file. -/
def append (t : Files ν) (d : List ν) (n : ν) (data : List UInt8) : Except Errno (Files ν) :=
  match h : t.get (d ++ [n]) with
  | some (.file old) =>
    .ok (t.put d n (.file (old ++ data)) (t.wf d n (by rw [show lookup _ _ = _ from h]; simp))
      (by simp [h]))
  | _ => .error .enoent

/-- Remove a file. -/
def unlink (t : Files ν) (d : List ν) (n : ν) : Except Errno (Files ν) :=
  if t.get (d ++ [n]) = none then .error .enoent
  else if h : t.get (d ++ [n]) = some .dir then .error .eisdir
  else .ok (t.del (d ++ [n]) fun m => get_below h [m] (by simp))

/-- Remove an empty directory. -/
def rmdir (t : Files ν) (d : List ν) (n : ν) : Except Errno (Files ν) :=
  if t.get (d ++ [n]) = none then .error .enoent
  else if t.get (d ++ [n]) = some .dir then
    if h : t.children (d ++ [n]) = [] then .ok (t.del (d ++ [n]) (children_eq_nil.mp h))
    else .error .enotempty
  else .error .enotdir

/-- Why an entry `k` may not be renamed over `target`, which is `empty` if it is a directory. -/
def inTheWay (k : Node) (target : Option Node) (empty : Bool) : Option Errno :=
  match k, target with
  | _, none => none
  | .dir, some .dir => if empty then none else some .enotempty
  | _, some .dir => some .eisdir
  | .dir, some _ => some .enotdir
  | _, some _ => none

/-- Rename an entry, with everything below it. -/
def rename (t : Files ν) (sd : List ν) (sn : ν) (dd : List ν) (dn : ν) : Except Errno (Files ν) :=
  match t.get (sd ++ [sn]) with
  | none => .error .enoent
  | some k =>
    if sd ++ [sn] = dd ++ [dn] then .ok t
    else if hs : sd ++ [sn] <+: dd ++ [dn] then .error .einval
    else if hd : dd ++ [dn] <+: sd ++ [sn] then .error .enotempty
    else if hp : t.get dd = some .dir then
      match inTheWay k (t.get (dd ++ [dn])) (t.children (dd ++ [dn]) = []) with
      | some e => .error e
      | none => .ok (t.move (sd ++ [sn]) dd dn ⟨hs, hd, hp⟩)
    else .error (t.notDir dd)

variable {t t' : Files ν} {d : List ν} {n : ν}

theorem make_ok {k : Node} (h : t.make d n k = .ok t') :
    t.get (d ++ [n]) = none ∧ ∀ q, t'.get q = if d ++ [n] = q then some k else t.get q := by
  unfold make at h
  by_cases hd : t.get d = some .dir
  · by_cases hn : t.get (d ++ [n]) = none
    · rw [dif_pos hd, dif_pos hn] at h
      cases h
      exact ⟨hn, get_put t d n k hd _⟩
    · rw [dif_pos hd, dif_neg hn] at h
      nomatch h
  · rw [dif_neg hd] at h
    nomatch h

theorem append_ok {data : List UInt8} (h : t.append d n data = .ok t') :
    ∃ old, t.get (d ++ [n]) = some (.file old) ∧
      ∀ q, t'.get q = if d ++ [n] = q then some (.file (old ++ data)) else t.get q := by
  unfold append at h
  split at h
  · rename_i old hold
    cases h
    exact ⟨old, hold, get_put t d n _ _ _⟩
  · nomatch h

theorem unlink_ok (h : t.unlink d n = .ok t') :
    t.get (d ++ [n]) ≠ none ∧ ∀ q, t'.get q = if d ++ [n] = q then none else t.get q := by
  unfold unlink at h
  split at h
  · nomatch h
  · rename_i hne
    split at h
    · nomatch h
    · cases h
      exact ⟨hne, get_del t _ _⟩

theorem rmdir_ok (h : t.rmdir d n = .ok t') :
    t.get (d ++ [n]) ≠ none ∧ ∀ q, t'.get q = if d ++ [n] = q then none else t.get q := by
  unfold rmdir at h
  split at h
  · nomatch h
  · rename_i hne
    split at h
    · split at h
      · cases h
        exact ⟨hne, get_del t _ _⟩
      · nomatch h
    · nomatch h

theorem rename_ok {sd dd : List ν} {sn dn : ν} (h : t.rename sd sn dd dn = .ok t') :
    t.get (sd ++ [sn]) ≠ none ∧
    ((sd ++ [sn] = dd ++ [dn] ∧ t' = t) ∨
      (¬ sd ++ [sn] <+: dd ++ [dn] ∧ ¬ dd ++ [dn] <+: sd ++ [sn] ∧
        ∀ q, t'.get q = if dd ++ [dn] <+: q then t.get (sd ++ [sn] ++ q.drop (dd ++ [dn]).length)
          else if sd ++ [sn] <+: q then none else t.get q)) := by
  unfold rename at h
  split at h
  · nomatch h
  · rename_i k hk
    refine ⟨by simp [hk], ?_⟩
    split at h
    · rename_i heq
      cases h
      exact Or.inl ⟨heq, rfl⟩
    · split at h
      · nomatch h
      · rename_i hs
        split at h
        · nomatch h
        · rename_i hd
          split at h
          · rename_i hp
            split at h
            · nomatch h
            · cases h
              exact Or.inr ⟨hs, hd, get_move t _ dd dn ⟨hs, hd, hp⟩⟩
          · nomatch h

end Files

/-! ## Calls -/

/-- A system call. -/
inductive Call (ν : Type) where
  | openDir (p : List ν)
  | stat (p : List ν)
  | readDir (p : List ν)
  | readFile (p : List ν)
  | mkdir (d : List ν) (n : ν)
  | create (d : List ν) (n : ν)
  | write (d : List ν) (n : ν) (data : List UInt8)
  | rename (sd : List ν) (sn : ν) (dd : List ν) (dn : ν)
  | unlink (d : List ν) (n : ν)
  | rmdir (d : List ν) (n : ν)
  | quiet (p : List ν)

namespace Call

/-- What a call answers when it succeeds; reading something that is not a regular file answers
    `none`. -/
def Answer : Call ν → Type
  | stat _ => Kind
  | readDir _ => List ν
  | readFile _ => Option (List UInt8)
  | _ => Unit

/-- What the outside world chooses. -/
inductive Choice (ν : Type) where
  | go
  | fault (e : Errno)
  | wrote (k : Nat) (e : Errno)
  | names (l : List ν)

/-- A call that only looks at the tree and answers `x`, if it ever answers. -/
def looking {α : Type} (t : Files ν) (x : Option (Except Errno α)) :
    Choice ν → Option (Except Errno α × Files ν)
  | .go => x.map (·, t)
  | .fault e => some (.error e, t)
  | _ => none

/-- A call that changes the tree to `x`, or not at all. -/
def changing (t : Files ν) (x : Except Errno (Files ν)) :
    Choice ν → Option (Except Errno Unit × Files ν)
  | .go =>
    match x with
    | .ok t' => some (.ok (), t')
    | .error e => some (.error e, t)
  | .fault e => some (.error e, t)
  | _ => none

/-- A write, which may stop half-way. -/
def writing (t : Files ν) (d : List ν) (n : ν) (data : List UInt8) :
    Choice ν → Option (Except Errno Unit × Files ν)
  | .wrote k e =>
    match t.append d n (data.take k) with
    | .ok t' => some (.error e, t')
    | .error _ => none
  | ch => changing t (t.append d n data) ch

/-- A listing, in any order. -/
def listing (t : Files ν) (p : List ν) : Choice ν → Option (Except Errno (List ν) × Files ν)
  | .names l =>
    if t.get p = some .dir ∧ l.Perm (t.children p) then some (.ok l, t) else none
  | ch =>
    looking t (some (if t.get p = some .dir then .ok (t.children p) else .error (t.notDir p))) ch

/-- What opening an entry and reading it as a regular file answers. -/
def reads : Option Node → Option (Except Errno (Option (List UInt8)))
  | some (.file data) => some (.ok (some data))
  | some .dir => some (.ok none)
  | some .symlink => some (.error .eloop)
  | some (.special .opens) => some (.ok none)
  | some (.special (.refuses e)) => some (.error e)
  | some (.special .waits) => none
  | none => some (.error .enoent)

/-- A call under a choice of the outside world: its answer and the tree after it. -/
def perform : (c : Call ν) → Files ν → Choice ν → Option (Except Errno c.Answer × Files ν)
  | openDir p, t, ch =>
    looking t (some (if t.get p = some .dir then .ok () else .error (t.notDir p))) ch
  | stat p, t, ch =>
    looking t (some (match t.get p with
      | some k => .ok k.kind
      | none => .error .enoent)) ch
  | readDir p, t, ch => listing t p ch
  | readFile p, t, ch => looking t (reads (t.get p)) ch
  | mkdir d n, t, ch => changing t (t.make d n .dir) ch
  | create d n, t, ch => changing t (t.make d n (.file [])) ch
  | write d n data, t, ch => writing t d n data ch
  | rename sd sn dd dn, t, ch => changing t (t.rename sd sn dd dn) ch
  | unlink d n, t, ch => changing t (t.unlink d n) ch
  | rmdir d n, t, ch => changing t (t.rmdir d n) ch
  | quiet _, t, ch => looking t (some (.ok ())) ch

/-! ## What a call may do -/

variable {t t' : Files ν} {ch : Choice ν}

theorem looking_cases {α : Type} {x : Option (Except Errno α)} {r : Except Errno α}
    (h : looking t x ch = some (r, t')) : t' = t ∧ (x = some r ∨ ∃ e, r = .error e) := by
  cases ch with
  | go =>
    obtain ⟨_, rfl, ⟨⟩⟩ := Option.map_eq_some_iff.mp h
    exact ⟨rfl, Or.inl rfl⟩
  | fault e =>
    cases h
    exact ⟨rfl, Or.inr ⟨e, rfl⟩⟩
  | wrote k e | names l => nomatch h

theorem changing_cases {x : Except Errno (Files ν)} {r : Except Errno Unit}
    (h : changing t x ch = some (r, t')) :
    (r = .ok () ∧ x = .ok t') ∨ ((∃ e, r = .error e) ∧ t' = t) := by
  cases ch with
  | go =>
    cases x with
    | ok t1 =>
      cases h
      exact Or.inl ⟨rfl, rfl⟩
    | error e =>
      cases h
      exact Or.inr ⟨⟨e, rfl⟩, rfl⟩
  | fault e =>
    cases h
    exact Or.inr ⟨⟨e, rfl⟩, rfl⟩
  | wrote k e | names l => nomatch h

theorem writing_cases {d : List ν} {n : ν} {data : List UInt8} {r : Except Errno Unit}
    (h : writing t d n data ch = some (r, t')) : (r = .ok () ∧ t.append d n data = .ok t') ∨
    ((∃ e, r = .error e) ∧ (t' = t ∨ ∃ part, t.append d n part = .ok t')) := by
  cases ch with
  | wrote k e =>
    unfold writing at h
    dsimp only at h
    split at h
    · rename_i t1 happ
      cases h
      exact Or.inr ⟨⟨e, rfl⟩, Or.inr ⟨_, happ⟩⟩
    · nomatch h
  | go =>
    rcases changing_cases (show changing t _ .go = _ from h) with h | h
    · exact Or.inl h
    · exact Or.inr ⟨h.1, Or.inl h.2⟩
  | fault e =>
    rcases changing_cases (show changing t _ (.fault e) = _ from h) with h | h
    · exact Or.inl h
    · exact Or.inr ⟨h.1, Or.inl h.2⟩
  | names l => nomatch h

theorem listing_cases {p : List ν} {r : Except Errno (List ν)} (h : listing t p ch = some (r, t')) :
    t' = t ∧ ((∃ l, r = .ok l ∧ t.get p = some .dir ∧ l.Perm (t.children p)) ∨
      ∃ e, r = .error e) := by
  have hlook : ∀ ch', looking t (some (if t.get p = some .dir then .ok (t.children p)
      else .error (t.notDir p))) ch' = some (r, t') → t' = t ∧
      ((∃ l, r = .ok l ∧ t.get p = some .dir ∧ l.Perm (t.children p)) ∨ ∃ e, r = .error e) := by
    intro ch' h'
    obtain ⟨rfl, hr | hr⟩ := looking_cases h'
    · by_cases hd : t'.get p = some .dir
      · rw [if_pos hd] at hr
        exact ⟨rfl, Or.inl ⟨_, (Option.some.inj hr).symm, hd, List.Perm.refl _⟩⟩
      · rw [if_neg hd] at hr
        exact ⟨rfl, Or.inr ⟨_, (Option.some.inj hr).symm⟩⟩
    · exact ⟨rfl, Or.inr hr⟩
  cases ch with
  | names l =>
    unfold listing at h
    dsimp only at h
    split at h
    · rename_i hl
      cases h
      exact ⟨rfl, Or.inl ⟨l, rfl, hl.1, hl.2⟩⟩
    · nomatch h
  | go => exact hlook .go h
  | fault e => exact hlook (.fault e) h
  | wrote k e => nomatch h

/-- The paths that a call may change. -/
def Touches : Call ν → List ν → Prop
  | mkdir d n, q => d ++ [n] = q
  | create d n, q => d ++ [n] = q
  | write d n _, q => d ++ [n] = q
  | rename sd sn dd dn, q => sd ++ [sn] <+: q ∨ dd ++ [dn] <+: q
  | unlink d n, q => d ++ [n] = q
  | rmdir d n, q => d ++ [n] = q
  | _, _ => False

/-- **A call changes only what it touches.** -/
theorem perform_frame {c : Call ν} {r : Except Errno c.Answer} (h : c.perform t ch = some (r, t'))
    {q : List ν} (hq : ¬ c.Touches q) : t'.get q = t.get q := by
  cases c with
  | openDir p | stat p => rw [(looking_cases h).1]
  | readDir p => rw [(listing_cases h).1]
  | readFile p | quiet p => rw [(looking_cases h).1]
  | mkdir d n | create d n =>
    rcases changing_cases h with ⟨-, hx⟩ | ⟨-, rfl⟩
    · rw [(Files.make_ok hx).2 q]
      exact if_neg hq
    · rfl
  | write d n data =>
    rcases writing_cases h with ⟨-, hx⟩ | ⟨-, rfl | ⟨part, hx⟩⟩
    · obtain ⟨old, -, hget⟩ := Files.append_ok hx
      rw [hget q]
      exact if_neg hq
    · rfl
    · obtain ⟨old, -, hget⟩ := Files.append_ok hx
      rw [hget q]
      exact if_neg hq
  | rename sd sn dd dn =>
    rcases changing_cases h with ⟨-, hx⟩ | ⟨-, rfl⟩
    · obtain ⟨-, ⟨-, rfl⟩ | ⟨-, -, hget⟩⟩ := Files.rename_ok hx
      · rfl
      · rw [hget q, if_neg fun hd => hq (Or.inr hd), if_neg fun hs => hq (Or.inl hs)]
    · rfl
  | unlink d n =>
    rcases changing_cases h with ⟨-, hx⟩ | ⟨-, rfl⟩
    · rw [(Files.unlink_ok hx).2 q]
      exact if_neg hq
    · rfl
  | rmdir d n =>
    rcases changing_cases h with ⟨-, hx⟩ | ⟨-, rfl⟩
    · rw [(Files.rmdir_ok hx).2 q]
      exact if_neg hq
    · rfl

end Call

end Lib
