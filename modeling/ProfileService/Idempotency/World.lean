import ProfileService.Library.Coroutine
import ProfileService.Library.Row
import ProfileService.Idempotency.Models
import ProfileService.Application.Exceptions

/-!
# The world a dispatch runs in

Any number of workers, each with its own database session, share the clock, the
hot store and the database. `DbOp` are the awaits of the transactional
execution, `Op` those of the coordinator; `machine` says what each of them does
to the world. The hot store and the business tables are parameters.
-/

namespace ProfileService.Idempotency
open Library Application

inductive HotCall where
  | claim (identity : IdempotencyKey) (fingerprint : Digest) (token : Token) (leaseSeconds : Nat)
  | renew (identity : IdempotencyKey) (token : Token) (leaseSeconds : Nat)
  | complete (identity : IdempotencyKey) (token : Token) (result : CompletedIdempotencyResult)
      (cacheTtlSeconds : Nat)
  | release (identity : IdempotencyKey) (token : Token)

def HotCall.Reply : HotCall → Type
  | .claim .. => ClaimResult
  | .renew .. => Bool
  | .complete .. => Bool
  | .release .. => Bool

/-- A hot store shared by the workers `W`: `exec w now` answers a call of `w` or
raises, `env now` is what happens to it unasked (expiry, eviction, a late
message), `frame w` is what the steps of everybody else leave to `w`; the
heartbeat of `w` is not `w` itself. -/
structure HotStore (W : Type) where
  State : Type
  exec : W → Instant → (c : HotCall) → State → Except Exn c.Reply → State → Prop
  env : Instant → State → State → Prop
  frame : W → State → State → Prop
  frame_refl : ∀ w h, frame w h h
  frame_trans : ∀ {w h₁ h₂ h₃}, frame w h₁ h₂ → frame w h₂ h₃ → frame w h₁ h₃
  frame_exec : ∀ {w v now c h r h'}, exec v now c h r h' → w ≠ v → frame w h h'
  frame_renew : ∀ {w v now k token lease h r h'}, exec v now (.renew k token lease) h r h' →
    frame w h h'
  frame_env : ∀ {w now h h'}, env now h h' → frame w h h'

/-- The tables an operation writes. `staged w` is what the open transaction of `w`
has written (`nothing` outside a transaction), `committed` the effects that were
made durable, newest first; `frame w` is what the steps of the other workers
leave to `w`. -/
structure Business (W : Type) where
  State : Type
  Op : Type
  Reply : Op → Type
  Staged : Type
  exec : W → (o : Op) → State → Except Exn (Reply o) → State → Prop
  commit : W → State → State
  rollback : W → State → State
  staged : W → State → Staged
  nothing : Staged
  committed : State → List (W × Staged)
  frame : W → State → State → Prop
  committed_exec : ∀ {w o b r b'}, exec w o b r b' → committed b' = committed b
  committed_commit : ∀ w b, committed (commit w b) = (w, staged w b) :: committed b
  committed_rollback : ∀ w b, committed (rollback w b) = committed b
  staged_commit : ∀ w b, staged w (commit w b) = nothing
  staged_rollback : ∀ w b, staged w (rollback w b) = nothing
  staged_frame : ∀ {w b b'}, frame w b b' → staged w b' = staged w b
  frame_refl : ∀ w b, frame w b b
  frame_trans : ∀ {w b₁ b₂ b₃}, frame w b₁ b₂ → frame w b₂ b₃ → frame w b₁ b₃
  frame_exec : ∀ {w v o b r b'}, exec v o b r b' → w ≠ v → frame w b b'
  frame_commit : ∀ {w v} b, w ≠ v → frame w b (commit v b)
  frame_rollback : ∀ {w v} b, w ≠ v → frame w b (rollback v b)

/-- A row of `idempotency_records` for one identity with its two time checks
(`postgres/models.py:18-95`). The replay columns are the
`CompletedIdempotencyResult` read back from them. -/
structure DurableRecord where
  completed : CompletedIdempotencyResult
  createdAt : Instant
  completedAt : Instant
  completion_time : createdAt ≤ completedAt
  expiration : completedAt < completed.expiresAt

theorem DurableRecord.lives (r : DurableRecord) : r.createdAt < r.completed.expiresAt :=
  lt_of_le_of_lt r.completion_time r.expiration

/-- The heartbeat task of a claimed execution and the two events it shares with it. -/
structure Heartbeat where
  identity : IdempotencyKey
  token : Token
  leaseSeconds : Nat
  lostLease : Bool
  ended : Bool

/-- One pass of the `_heartbeat` loop after its sleep (`coordinator.py:300-317`). -/
def Heartbeat.afterRenew (hb : Heartbeat) : Except Exn Bool → Heartbeat
  | .ok true => hb
  | .ok false => { hb with lostLease := true, ended := true }
  | .error .cancelled => { hb with ended := true }
  | .error _ => { hb with lostLease := true, ended := true }

section Signatures
variable {W : Type} (B : Business W)

/-- What a handler may await. -/
inductive StmtOp where
  | clock
  | stmt (o : B.Op)

inductive DbOp where
  | clock
  | begin
  | commit
  | rollback
  | selectRecord (identity : IdempotencyKey) (now : Instant)
  | upsertRecord (identity : IdempotencyKey) (row : DurableRecord)
  | stmt (o : B.Op)

inductive Op where
  | hot (c : HotCall)
  | startHeartbeat (identity : IdempotencyKey) (token : Token) (leaseSeconds : Nat)
  | leaseLost
  | stopHeartbeat
  | db (o : DbOp B)

def stmtSig : Signature where
  Op := StmtOp B
  Reply
    | .clock => Instant
    | .stmt o => B.Reply o

def dbSig : Signature where
  Op := DbOp B
  Reply
    | .clock => Instant
    | .begin => Unit
    | .commit => Unit
    | .rollback => Unit
    | .selectRecord .. => Option DurableRecord
    | .upsertRecord .. => Bool
    | .stmt o => B.Reply o

def sig : Signature where
  Op := Op B
  Reply
    | .hot c => c.Reply
    | .startHeartbeat .. => Unit
    | .leaseLost => Bool
    | .stopHeartbeat => Unit
    | .db o => (dbSig B).Reply o

def stmtInDb : (stmtSig B).Inclusion (dbSig B) where
  op
    | .clock => .clock
    | .stmt o => .stmt o
  reply
    | .clock => id
    | .stmt _ => id

def dbInSig : (dbSig B).Inclusion (sig B) where
  op := .db
  reply _ := id

end Signatures

/-- What one commit made durable. -/
structure Commit (W : Type) (B : Business W) where
  worker : W
  instant : Instant
  staged : B.Staged
  installed : IdempotencyKey → Option DurableRecord

/-- `clockRead w` is the last clock reading of `w` (until its first one, the time
at which the run began), `log` the commits, newest first; both only record what
happened. -/
structure World (W : Type) (H : HotStore W) (B : Business W) where
  now : Instant
  hot : H.State
  heartbeat : W → Option Heartbeat
  records : IdempotencyKey → Row W DurableRecord
  business : B.State
  inTransaction : W → Bool
  clockRead : W → Instant
  log : List (Commit W B)

namespace World
variable {W : Type} [DecidableEq W] {H : HotStore W} {B : Business W}

def readClock (w : W) (s : World W H B) : World W H B :=
  { s with clockRead := Function.update s.clockRead w s.now }

def begin (w : W) (s : World W H B) : World W H B :=
  { s with inTransaction := Function.update s.inTransaction w true }

def commit (w : W) (s : World W H B) : World W H B :=
  { s with
    records := fun k => (s.records k).commit w
    business := B.commit w s.business
    inTransaction := Function.update s.inTransaction w false
    log := ⟨w, s.now, B.staged w s.business, fun k => (s.records k).own w⟩ :: s.log }

def rollback (w : W) (s : World W H B) : World W H B :=
  { s with
    records := fun k => (s.records k).rollback w
    business := B.rollback w s.business
    inTransaction := Function.update s.inTransaction w false }

def writeRecord (w : W) (k : IdempotencyKey) (row : DurableRecord) (s : World W H B) :
    World W H B :=
  { s with records := Function.update s.records k ((s.records k).write w row) }

def setHeartbeat (w : W) (hb : Option Heartbeat) (s : World W H B) : World W H B :=
  { s with heartbeat := Function.update s.heartbeat w hb }

/-- A dead worker's session is closed, which rolls an open transaction back, and
its heartbeat dies with it. -/
def crash (w : W) (s : World W H B) : World W H B :=
  (if s.inTransaction w then s.rollback w else s).setHeartbeat w none

end World

/-- Which exceptions the database and the event loop may raise out of thin air,
and whether workers may die. -/
structure Failures where
  fault : Exn → Prop
  crash : Prop

def Failures.any : Failures where
  fault e := e = .cancelled ∨ ∃ q, e = .sql q
  crash := True

def Failures.never : Failures where
  fault _ := False
  crash := False

section Machine
variable {W : Type} [DecidableEq W] {H : HotStore W} {B : Business W}

/-- One await of the transactional execution. A failed commit may have happened; a
failed rollback has. The upsert waits for a competing uncommitted row and then
evaluates its `WHERE` on the latest committed one. -/
def dbExec (F : Failures) (w : W) :
    (o : DbOp B) → World W H B → Except Exn ((dbSig B).Reply o) → World W H B → Prop
  | .clock, s, r, s' => r = .ok s.now ∧ s' = s.readClock w
  | .begin, s, r, s' =>
    if s.inTransaction w then r = .error .nestedTransactionNotAllowed ∧ s' = s
    else (r = .ok () ∧ s' = s.begin w) ∨ ∃ e, F.fault e ∧ r = .error e ∧ s' = s
  | .commit, s, r, s' =>
    if s.inTransaction w then
      (r = .ok () ∧ s' = s.commit w) ∨
        ∃ e, F.fault e ∧ r = .error e ∧ (s' = s.commit w ∨ s' = s.rollback w)
    else r = .error .transactionNotStarted ∧ s' = s
  | .rollback, s, r, s' =>
    if s.inTransaction w then
      s' = s.rollback w ∧ (r = .ok () ∨ ∃ e, F.fault e ∧ r = .error e)
    else r = .error .transactionNotStarted ∧ s' = s
  | .selectRecord k now, s, r, s' =>
    s' = s ∧
      (r = .ok (((s.records k).visible w).filter fun row => now < row.completed.expiresAt) ∨
        ∃ e, F.fault e ∧ r = .error e)
  | .upsertRecord k row, s, r, s' =>
    if s.inTransaction w then
      ((s.records k).Free w ∧
        match (s.records k).visible w with
        | none => r = .ok true ∧ s' = s.writeRecord w k row
        | some old =>
          if old.completed.expiresAt ≤ row.createdAt then r = .ok true ∧ s' = s.writeRecord w k row
          else r = .ok false ∧ s' = s) ∨
      ∃ e, F.fault e ∧ r = .error e ∧ s' = s
    else r = .error .transactionRequired ∧ s' = s
  | .stmt o, s, r, s' =>
    if s.inTransaction w then ∃ b, B.exec w o s.business r b ∧ s' = { s with business := b }
    else r = .error .transactionRequired ∧ s' = s

def opExec (F : Failures) (w : W) :
    (o : Op B) → World W H B → Except Exn ((sig B).Reply o) → World W H B → Prop
  | .hot c, s, r, s' => ∃ h, H.exec w s.now c s.hot r h ∧ s' = { s with hot := h }
  | .startHeartbeat k token lease, s, r, s' =>
    r = .ok () ∧ s' = s.setHeartbeat w (some ⟨k, token, lease, false, false⟩)
  | .leaseLost, s, r, s' => r = .ok ((s.heartbeat w).any Heartbeat.lostLease) ∧ s' = s
  | .stopHeartbeat, s, r, s' =>
    r = .ok () ∧ s' = s.setHeartbeat w ((s.heartbeat w).map fun hb => { hb with ended := true })
  | .db o, s, r, s' => dbExec F w o s r s'

/-- The steps no worker takes: the clock advances, the hot store changes by
itself, and a heartbeat task that has not ended renews its lease. -/
inductive WorldEnv : World W H B → World W H B → Prop where
  | tick (s : World W H B) (now : Instant) (h : s.now ≤ now) : WorldEnv s { s with now := now }
  | hot (s : World W H B) (h : H.State) (he : H.env s.now s.hot h) :
      WorldEnv s { s with hot := h }
  | beat (s : World W H B) (w : W) (hb : Heartbeat) (r : Except Exn Bool) (h : H.State)
      (hw : s.heartbeat w = some hb) (hrun : hb.ended = false)
      (he : H.exec w s.now (.renew hb.identity hb.token hb.leaseSeconds) s.hot r h) :
      WorldEnv s (({ s with hot := h } : World W H B).setHeartbeat w (some (hb.afterRenew r)))

def machine (W : Type) [DecidableEq W] (H : HotStore W) (B : Business W) (F : Failures) :
    Machine (sig B) Exn W (World W H B) where
  exec := opExec F
  env := WorldEnv
  crash w s s' := F.crash ∧ s' = s.crash w

/-- The same world for the transactional execution alone. -/
def dbMachine (W : Type) [DecidableEq W] (H : HotStore W) (B : Business W) (F : Failures) :
    Machine (dbSig B) Exn W (World W H B) where
  exec := dbExec F
  env := WorldEnv
  crash w s s' := F.crash ∧ s' = s.crash w

end Machine
end ProfileService.Idempotency
