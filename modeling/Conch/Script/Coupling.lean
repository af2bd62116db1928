-- SUMMARY: Joining two jobs by a pipe between them.
import Conch.System.Job

/-!
# Coupling jobs

Two jobs are coupled by a pipe without anything else running beside them. The first
runs until the pipe holds a good deal or it is done; then the second runs until it wants to
read more than there is. When the second is done, whatever the first still writes is
refused.
-/

namespace Conch

namespace Job

/-- How much a pipe between two jobs holds before the writer has to wait. -/
def pipeCapacity : Nat := 65536

/-- What is in a pipe: chunks with the latest first, and their size. -/
structure Held where
  chunks : List Bytes := []
  size : Nat := 0

/-- Put bytes in. -/
def Held.put (h : Held) (data : Bytes) : Held := ⟨data :: h.chunks, h.size + data.length⟩

/-- All that is in a pipe. -/
def Held.content (h : Held) : Bytes := h.chunks.reverse.flatten

/-- Run a job until a pipe is full or the job is done. -/
def fill {α γ : Type} (pipe : Nat) : Job α → Held → (Bytes → Job α → Job γ) → Job γ
  | done a, held, go => go held.content (done a)
  | ask (.write (.joint n) data) resume, held, go =>
    if n = pipe then
      let held := held.put data
      if held.size < pipeCapacity then (resume (.ok ())).fill pipe held go
      else go held.content (resume (.ok ()))
    else ask (.write (.joint n) data) fun reply => (resume reply).fill pipe held go
  | ask call resume, held, go => ask call fun reply => (resume reply).fill pipe held go

/-- Run a job to its end while nobody reads its pipe. -/
def unread {α : Type} (pipe : Nat) : Job α → Job α
  | done a => done a
  | ask (.write (.joint n) data) resume =>
    if n = pipe then
      if data.isEmpty then (resume (.ok ())).unread pipe else (resume (.error .brokenPipe)).unread pipe
    else ask (.write (.joint n) data) fun reply => (resume reply).unread pipe
  | ask call resume => ask call fun reply => (resume reply).unread pipe

/-- Run a job that reads what another writes. `buffer` is what was written and not yet read. -/
def drain {α β : Type} (pipe : Nat) : Job β → Bytes → Job α → Job (α × β)
  | done b, _, writer => (writer.unread pipe).bind fun a => done (a, b)
  | ask (.read (.joint n) limit) resume, buffer, writer =>
    if n = pipe then
      if buffer.isEmpty then
        writer.fill pipe {} fun data writer =>
          (resume (.ok (data.take limit))).drain pipe (data.drop limit) writer
      else (resume (.ok (buffer.take limit))).drain pipe (buffer.drop limit) writer
    else ask (.read (.joint n) limit) fun reply => (resume reply).drain pipe buffer writer
  | ask (.hangUp (.joint n)) resume, buffer, writer =>
    if n = pipe then (writer.unread pipe).bind fun a => (resume ()).drain pipe [] (done a)
    else ask (.hangUp (.joint n)) fun reply => (resume reply).drain pipe buffer writer
  | ask call resume, buffer, writer => ask call fun reply => (resume reply).drain pipe buffer writer

/-- Run two jobs with a pipe from the first to the second. -/
def couple {α β : Type} (pipe : Nat) (writer : Job α) (reader : Job β) : Job (α × β) :=
  writer.fill pipe {} fun data writer => reader.drain pipe data writer

end Job

end Conch
