import Mvua.OracleAdapter.Dispute
import Mvua.TriggerEngine.Accumulation

namespace Mvua.Feed

/-- The storage of the two contracts of the integrated feed. -/
structure World where
  oracle : OracleAdapter.State
  engine : TriggerEngine.State

inductive Action where
  | oracle (c : OracleAdapter.Call)
  | engine (c : TriggerEngine.Call)

section Machine

variable (verify : BytesN 32 → OracleAdapter.ObservationPayload → BytesN 64 → Bool)
  (adapter : Address)

/-- What the sub-call `median` returns: at the address of the oracle adapter its own median,
and anywhere else what is there. -/
def answer (env : Env) (o : OracleAdapter.State)
    (elsewhere : Address → Symbol → Symbol → Except Trap Int) :
    Address → Symbol → Symbol → Except Trap Int :=
  fun address region metric =>
    if address=adapter then
      subcall OracleAdapter.Error.code (OracleAdapter.median env o region metric)
    else elsewhere address region metric

/-- A call of the engine, with its reads answered by the oracle adapter as it is now. -/
def linked (env : Env) (o : OracleAdapter.State) : TriggerEngine.Call → TriggerEngine.Call
  | .recordDayFromOracle i w day elsewhere =>
      .recordDayFromOracle i w day (answer adapter env o elsewhere)
  | c => c

def execute (env : Env) (v : World) : Action → Except Trap World
  | .oracle c =>
      (subcall OracleAdapter.Error.code (OracleAdapter.invoke verify env v.oracle c)).map
        fun o => { v with oracle := o }
  | .engine c =>
      (subcall TriggerEngine.Error.code
        (TriggerEngine.invoke env v.engine (linked adapter env v.oracle c))).map
        fun s => { v with engine := s }

/-- Transactions against the two contracts, in any order and at any ledger time. -/
def machine : Machine World (Env × Action) Trap where
  step v a := execute verify adapter a.1 v a.2

def deployWorld (oracleAdmin triggerAdmin : Address) : World where
  oracle := OracleAdapter.deploy oracleAdmin
  engine := TriggerEngine.deploy triggerAdmin

def oracleCalls (_ : World) : Env × Action → List (Env × OracleAdapter.Call)
  | (env,.oracle c) => [(env,c)]
  | (_,.engine _) => []

def engineCalls (v : World) : Env × Action → List (Env × TriggerEngine.Call)
  | (_,.oracle _) => []
  | (env,.engine c) => [(env,linked adapter env v.oracle c)]

/-- One transaction is a call of one contract and leaves the other alone. -/
theorem next_eq (v : World) (a : Env × Action) : (machine verify adapter).next v a=
    ⟨(OracleAdapter.machine verify).run v.oracle (oracleCalls v a),
      TriggerEngine.machine.run v.engine (engineCalls adapter v a)⟩ := by
  obtain ⟨env,c⟩ := a
  cases c with
  | oracle c =>
    simp only [Machine.next,machine,execute,oracleCalls,engineCalls,Machine.run_cons,
      Machine.run_nil,OracleAdapter.machine]
    rcases OracleAdapter.invoke verify env v.oracle c with (e | t) | o <;> rfl
  | engine c =>
    simp only [Machine.next,machine,execute,oracleCalls,engineCalls,Machine.run_cons,
      Machine.run_nil,TriggerEngine.machine]
    rcases TriggerEngine.invoke env v.engine (linked adapter env v.oracle c) with (e | t) | s <;>
      rfl

theorem run_eq (v : World) (calls : List (Env × Action)) : (machine verify adapter).run v calls=
    ⟨(OracleAdapter.machine verify).run v.oracle
        ((machine verify adapter).log oracleCalls v calls),
      TriggerEngine.machine.run v.engine
        ((machine verify adapter).log (engineCalls adapter) v calls)⟩ := by
  induction calls generalizing v with
  | nil => rfl
  | cons a calls ih =>
    rw [Machine.run_cons,ih,Machine.log,Machine.log,Machine.run_append,Machine.run_append,next_eq]

theorem log_engine {γ : Type} (f : TriggerEngine.State → Env × TriggerEngine.Call → List γ)
    (v : World) (calls : List (Env × Action)) :
    TriggerEngine.machine.log f v.engine
        ((machine verify adapter).log (engineCalls adapter) v calls)=
      (machine verify adapter).log
        (fun v a => TriggerEngine.machine.log f v.engine (engineCalls adapter v a)) v calls := by
  induction calls generalizing v with
  | nil => rfl
  | cons a calls ih =>
    rw [Machine.log,Machine.log,Machine.log_append,← ih,next_eq]

end Machine

end Mvua.Feed
