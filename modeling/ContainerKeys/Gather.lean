/-!
# Gathering

The results of an effectful function over a list, one after another.
-/

namespace ContainerKeys

/-- Runs `f` on the elements of a list in order and appends the results. -/
def gather [Monad m] (f : α → m (List β)) : List α → m (List β)
  | [] => pure []
  | a :: rest => do
    let here ← f a
    let more ← gather f rest
    pure (here ++ more)

end ContainerKeys
