/-!
A pool hands out each name once. A name that is taken is followed by the first
number from two on that makes it free.
-/

namespace IdlBindings.Naming

structure Pool where
  taken : List String

namespace Pool

def ofReserved (names : List String) : Pool :=
  ⟨names⟩

def isTaken (pool : Pool) (name : String) : Bool :=
  pool.taken.contains name

def numbered (name : String) (n : Nat) : String :=
  name ++ "_" ++ toString n

/-- The name itself, then its numbered forms: one more than there are taken
names, so one of them is free. -/
def candidates (pool : Pool) (name : String) : List String :=
  name :: (List.range pool.taken.length).map fun k => numbered name (k + 2)

def choose (pool : Pool) (name : String) : String :=
  ((pool.candidates name).find? fun candidate => !pool.isTaken candidate).getD name

/-- The name handed out for `name`, and the pool without it. -/
def allocate (pool : Pool) (name : String) : String × Pool :=
  let chosen := pool.choose name
  (chosen, ⟨chosen :: pool.taken⟩)

end Pool

end IdlBindings.Naming
