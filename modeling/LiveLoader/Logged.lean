import LiveLoader.Error
import LiveLoader.Log

/-!
# Computations that write to the log

`Logged α` is a value together with the entries that were written on the way to it. `Build α` may
fail as well; what was written before a failure stays written.
-/

namespace LiveLoader

structure Logged (α : Type) where
  value : α
  log : Log := []
  deriving Repr

namespace Logged

def write (e : LogEntry) : Logged Unit := ⟨(), [e]⟩

instance : Monad Logged where
  pure a := ⟨a, []⟩
  bind x f := ⟨(f x.value).value, x.log ++ (f x.value).log⟩

@[simp] theorem value_pure (a : α) : (pure a : Logged α).value = a := rfl
@[simp] theorem log_pure (a : α) : (pure a : Logged α).log = [] := rfl

@[simp] theorem value_bind (x : Logged α) (f : α → Logged β) :
    (x >>= f).value = (f x.value).value := rfl

@[simp] theorem log_bind (x : Logged α) (f : α → Logged β) :
    (x >>= f).log = x.log ++ (f x.value).log := rfl

@[simp] theorem value_map (f : α → β) (x : Logged α) : (f <$> x).value = f x.value := rfl
@[simp] theorem value_write (e : LogEntry) : (write e).value = () := rfl
@[simp] theorem log_write (e : LogEntry) : (write e).log = [e] := rfl

instance : LawfulMonad Logged :=
  LawfulMonad.mk' Logged (fun x => by cases x; simp [Functor.map]) (fun _ _ => rfl)
    (fun _ _ _ => by simp [bind, List.append_assoc])

end Logged

abbrev Build (α : Type) := ExceptT BuildError Logged α

namespace Build

def ofResult (r : Result α) : Build α := ExceptT.mk (pure r)

def ofLogged (x : Logged α) : Build α := ExceptT.mk (.ok <$> x)

end Build

end LiveLoader
