import SmartFill.AISmartFillRuns
import SmartFill.AIGenerateRuns

namespace SmartFill.CacheHit
open ImageCache

-- What a Bake press owes its key: the pixels are loaded, or a task that will
-- write the key's file is running.
def Served {T : Type} {extension : Bytes} (key : Bytes) (path : Path) (rt : Runtime T extension) : Prop :=
  (∃ l : Loaded extension, rt.cache = l.buffer ∧ l.key = key) ∨
    (rt.worker.state = .running ∧
      ∃ run, rt.worker.thread.run? = some run ∧ run.job.key = key ∧ run.job.path = path)

section Fill
open AISmartFill
variable {host : AISmartFill.Host} {disk : Files} {node node' : AISmartFill.Node} {source mask : Input} {key : Bytes}
  {validated : Option (Option Stop)}

end Fill

section Generate
open AIGenerate
variable {host : AIGenerate.Host} {disk : Files} {chance : Chance} {node : AIGenerate.Node} {key : Bytes}

end Generate

section Cached
open AIGenerate

end Cached

end SmartFill.CacheHit
