import Kommunsign.Infra.ReadCommitted
import Kommunsign.Infra.Table

/-!
# Transactions as scripts of statements

A script is a part of a transaction at read committed: its statements, and what comes after them.
The statements are those of the tables, so that a script can be compared with the transaction that
does the same at once.

* `Script` — a part of a transaction, with its locks
* `Program.alone`, `locked_of_alone` — what a program does when nothing comes between
-/

namespace Infra.ReadCommitted

variable {σ κ ε ρ α β : Type}

/-- Statements, given what comes after them. -/
def Script (σ κ α : Type) := (α → Program σ κ) → Program σ κ

namespace Script

instance : Monad (Script σ κ) where
  pure a := fun next => next a
  bind x f := fun next => x fun a => f a next

def lock (key : κ) : Script σ κ Unit := fun next => .lock key (next ())

/-- A query. -/
def look : Script σ κ σ := fun next => .statement (fun _ state => state) next

/-- A statement that nothing vetoes. -/
def rewrite (f : σ → σ) : Script σ κ Unit := fun next =>
  .statement (fun _ state => f state) fun _ => next ()

def insert (T : Table σ ε ρ) (row : ρ) : Script σ κ Unit := fun next =>
  .statement (fun _ state => T.put (T.rows state ++ [row]) state) fun visible =>
    match T.onInsert visible row with
    | .error _ => .abort
    | .ok _ => next ()

def forEach (f : α → Script σ κ Unit) : List α → Script σ κ Unit
  | [] => pure ()
  | a :: rest => do
    f a
    forEach f rest

/-- The write of an update. -/
def assignRows (T : Table σ ε ρ) (p : ρ → Bool) (f : ρ → ρ) : Script σ κ Nat := fun next =>
  .statement (fun _ state => T.put (assign p f (T.rows state)) state) fun visible =>
    match checkAll (fun row => T.onUpdate visible row (f row)) ((T.rows visible).filter p) with
    | .error _ => .abort
    | .ok _ => next ((T.rows visible).countP p)

/--
An update locks the rows that it finds, one after the other, and changes those of them that it
still finds then.
-/
def update [DecidableEq κ] (T : Table σ ε ρ) (lockOf : ρ → κ) (p : ρ → Bool) (f : ρ → ρ) :
    Script σ κ Nat := do
  let found ← look
  let locks := ((T.rows found).filter p).map lockOf
  forEach lock locks
  assignRows T (fun row => p row && locks.contains (lockOf row)) f

/-- The script as a transaction of its own. -/
def program (x : Script σ κ Unit) : Program σ κ := x fun _ => .commit

end Script

/-! ## A program alone -/

/-- The state that the program leaves when no other commits before it does. -/
def Program.alone : Program σ κ → σ → Option σ
  | .commit, s => some s
  | .abort, _ => none
  | .lock _ next, s => next.alone s
  | .statement write next, s => (next s).alone (write s s)

/-- With the lock in hand, a program does what it does alone. -/
theorem locked_of_alone {P : σ → Prop} {program : Program σ κ} {value : σ}
    (h : ∀ s, program.alone value = some s → P s) : Locked id P program value := by
  induction program generalizing value with
  | commit => exact h value rfl
  | abort => trivial
  | lock _ next ih => exact ih h
  | statement write next ih =>
    intro visible hvisible
    obtain rfl : visible = value := hvisible
    refine ⟨fun state hstate => ?_, ih visible h⟩
    obtain rfl : state = visible := hstate
    rfl

/-- An update looks at its rows only. -/
theorem update_congr {T : Table σ ε ρ} {s : σ} {p q : ρ → Bool} {f : ρ → ρ}
    (h : ∀ row ∈ T.rows s, p row = q row) : T.update p f s = T.update q f s := by
  have hfilter : (T.rows s).filter p = (T.rows s).filter q := List.filter_congr h
  have hassign : assign p f (T.rows s) = assign q f (T.rows s) :=
    List.map_congr_left fun row hrow => by rw [h row hrow]
  have hcount : (T.rows s).countP p = (T.rows s).countP q :=
    List.countP_congr fun row hrow => by rw [h row hrow]
  unfold Table.update
  simp only [Bind.bind, Transaction.check, hfilter]
  cases checkAll (fun row => T.onUpdate s row (f row)) ((T.rows s).filter q) with
  | error e => rfl
  | ok u =>
    show Except.ok ((T.rows s).countP p, T.put (assign p f (T.rows s)) s) = _
    rw [hassign, hcount]
    rfl

namespace Script

/-- Alone, the script does what the transaction does, and then goes on. -/
def Does (x : Script σ κ α) (tx : Transaction σ ε α) : Prop :=
  ∀ next s, (x next).alone s = match tx s with
    | .error _ => none
    | .ok (a, s') => (next a).alone s'

namespace Does

theorem pure (a : α) : Does (pure a : Script σ κ α) (Pure.pure a : Transaction σ ε α) :=
  fun _ _ => rfl

theorem bind {x : Script σ κ α} {f : α → Script σ κ β} {tx : Transaction σ ε α}
    {g : α → Transaction σ ε β} (hx : Does x tx) (hf : ∀ a, Does (f a) (g a)) :
    Does (x >>= f) (tx >>= g) := by
  intro next s
  show (x fun a => f a next).alone s = _
  rw [hx]
  simp only [Bind.bind]
  cases tx s with
  | error e => rfl
  | ok r => exact hf r.1 next r.2

/-- A lock that is free is only taken. -/
theorem lock_bind {key : κ} {x : Script σ κ α} {tx : Transaction σ ε α} (hx : Does x tx) :
    Does (do lock key; x) tx := fun next s => hx next s

theorem look : Does (look : Script σ κ σ) (Transaction.read : Transaction σ ε σ) :=
  fun _ _ => rfl

theorem rewrite (f : σ → σ) :
    Does (rewrite f : Script σ κ Unit) (Transaction.rewrite f : Transaction σ ε Unit) :=
  fun _ _ => rfl

theorem insert (T : Table σ ε ρ) (row : ρ) :
    Does (insert T row : Script σ κ Unit) (T.insert row) := by
  intro next s
  cases hinsert : T.onInsert s row with
  | error e =>
    have hfails : T.insert row s = .error e := by
      simp only [Table.insert, Bind.bind, Transaction.check, hinsert]
    rw [hfails]
    simp only [Script.insert, Program.alone, hinsert]
  | ok u =>
    have hdone : T.insert row s = .ok ((), T.put (T.rows s ++ [row]) s) :=
      Table.insert_eq_ok.mpr ⟨hinsert, rfl⟩
    rw [hdone]
    simp only [Script.insert, Program.alone, hinsert]

theorem assignRows (T : Table σ ε ρ) (p : ρ → Bool) (f : ρ → ρ) :
    Does (assignRows T p f : Script σ κ Nat) (T.update p f) := by
  intro next s
  cases hcheck : checkAll (fun row => T.onUpdate s row (f row)) ((T.rows s).filter p) with
  | error e =>
    have hfails : T.update p f s = .error e := by
      simp only [Table.update, Bind.bind, Transaction.check, hcheck]
    rw [hfails]
    simp only [Script.assignRows, Program.alone, hcheck]
  | ok u =>
    have hrows : ∀ row ∈ T.rows s, p row = true → T.onUpdate s row (f row) = .ok () :=
      fun row hrow hp => checkAll_eq_ok.mp hcheck row (List.mem_filter.mpr ⟨hrow, hp⟩)
    have hdone : T.update p f s =
        .ok ((T.rows s).countP p, T.put (assign p f (T.rows s)) s) :=
      Table.update_eq_ok.mpr ⟨hrows, rfl, rfl⟩
    rw [hdone]
    simp only [Script.assignRows, Program.alone, hcheck]

theorem forEach {f : α → Script σ κ Unit} {g : α → Transaction σ ε Unit}
    (h : ∀ a, Does (f a) (g a)) : ∀ items : List α,
      Does (forEach f items) (Transaction.forEach g items)
  | [] => pure ()
  | a :: rest => (h a).bind fun _ => forEach h rest

/-- Locks that are free are only taken. -/
theorem locks (next : Unit → Program σ κ) (s : σ) :
    ∀ keys : List κ, (Script.forEach lock keys next).alone s = (next ()).alone s
  | [] => rfl
  | _ :: keys => locks next s keys

/-- Alone, an update still finds every row that it has found. -/
theorem update [DecidableEq κ] (T : Table σ ε ρ) (lockOf : ρ → κ) (p : ρ → Bool) (f : ρ → ρ) :
    Does (update T lockOf p f) (T.update p f) := by
  intro next s
  have hfound : ∀ row ∈ T.rows s,
      (p row && (((T.rows s).filter p).map lockOf).contains (lockOf row)) = p row := by
    intro row hrow
    cases hp : p row with
    | false => rfl
    | true =>
      rw [Bool.true_and, List.contains_iff_mem]
      exact List.mem_map_of_mem (List.mem_filter.mpr ⟨hrow, hp⟩)
  show (Script.forEach lock (((T.rows s).filter p).map lockOf) _).alone s = _
  rw [locks, assignRows T _ f, update_congr hfound]

theorem ite {c : Prop} [Decidable c] {x y : Script σ κ α} {tx ty : Transaction σ ε α}
    (hx : Does x tx) (hy : Does y ty) : Does (if c then x else y) (if c then tx else ty) := by
  split
  · exact hx
  · exact hy

/-- A transaction of its own leaves what the transaction does. -/
theorem program {x : Script σ κ Unit} {tx : Transaction σ ε Unit} (h : Does x tx) (s : σ) :
    x.program.alone s = tx.outcome s := by
  rw [Script.program, h, Transaction.outcome]
  cases tx s with
  | error e => rfl
  | ok r => rfl

end Does

end Script

/-! ## Before the lock -/

section Prepare

variable [DecidableEq κ] {key : κ} {P : σ → Prop} {effect : σ → σ}

theorem preparing_insert {T : Table σ ε ρ} {row : ρ} {next : Unit → Program σ κ}
    (h : Preparing id key P (next ()) fun s =>
      T.put (T.rows (effect s) ++ [row]) (effect s)) :
    Preparing id key P (Script.insert T row next) effect := by
  intro visible _
  refine ⟨fun s => T.put (T.rows s ++ [row]) s, fun _ => rfl, ?_⟩
  cases hinsert : T.onInsert visible row with
  | error e => simp only [hinsert, Preparing]
  | ok u =>
    simp only [hinsert]
    exact h

theorem preparing_assignRows {T : Table σ ε ρ} {p : ρ → Bool} {f : ρ → ρ}
    {next : Nat → Program σ κ} (h : ∀ n, Preparing id key P (next n) fun s =>
      T.put (assign p f (T.rows (effect s))) (effect s)) :
    Preparing id key P (Script.assignRows T p f next) effect := by
  intro visible _
  refine ⟨fun s => T.put (assign p f (T.rows s)) s, fun _ => rfl, ?_⟩
  cases hcheck : checkAll (fun row => T.onUpdate visible row (f row))
      ((T.rows visible).filter p) with
  | error e => simp only [hcheck, Preparing]
  | ok u =>
    simp only [hcheck]
    exact h _

/-- Another lock. -/
theorem preparing_lock {key' : κ} {next : Unit → Program σ κ} (hne : key' ≠ key)
    (h : Preparing id key P (next ()) effect) :
    Preparing id key P (Script.lock key' next) effect := by
  show Preparing id key P (.lock key' (next ())) effect
  rw [Preparing, if_neg hne]
  exact h

theorem preparing_locks {next : Unit → Program σ κ} (h : Preparing id key P (next ()) effect) :
    ∀ {keys : List κ}, (∀ key' ∈ keys, key' ≠ key) →
      Preparing id key P (Script.forEach Script.lock keys next) effect
  | [], _ => h
  | key' :: keys, hne => by
    have hrest : Preparing id key P (Script.forEach Script.lock keys next) effect :=
      preparing_locks h fun key' hkey => hne key' (List.mem_cons_of_mem _ hkey)
    show Preparing id key P (Script.lock key' fun _ => Script.forEach Script.lock keys next) effect
    exact preparing_lock (hne key' List.mem_cons_self) hrest

/-- `locks` are those of the rows that the update has found, over what is committed then. -/
theorem preparing_update {T : Table σ ε ρ} {lockOf : ρ → κ} {p : ρ → Bool} {f : ρ → ρ}
    {next : Nat → Program σ κ} (hne : ∀ row, lockOf row ≠ key)
    (h : ∀ value, P value → ∀ locks, locks = ((T.rows (effect value)).filter p).map lockOf →
      ∀ n, Preparing id key P (next n) fun s =>
        T.put (assign (fun row => p row && locks.contains (lockOf row)) f (T.rows (effect s)))
          (effect s)) :
    Preparing id key P (Script.update T lockOf p f next) effect := by
  rintro visible ⟨value, hvalue, rfl : visible = effect value⟩
  refine ⟨id, fun _ => rfl, ?_⟩
  refine preparing_locks (preparing_assignRows (h value hvalue _ rfl)) fun key' hkey => ?_
  obtain ⟨row, -, rfl⟩ := List.mem_map.mp hkey
  exact hne row

/-- The lock itself: from here the program is alone. -/
theorem preparing_take {next : Unit → Program σ κ}
    (h : ∀ value, P value → ∀ s, (next ()).alone (effect value) = some s → P s) :
    Preparing id key P (Script.lock key next) effect := by
  show Preparing id key P (.lock key (next ())) effect
  rw [Preparing, if_pos rfl]
  exact fun value hvalue => locked_of_alone (h value hvalue)

end Prepare

end Infra.ReadCommitted
