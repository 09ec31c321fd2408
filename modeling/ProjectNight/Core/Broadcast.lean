import ProjectNight.Core.BufferPool
import ProjectNight.Core.RoomSystem
import ProjectNight.Core.Server

/-!
# Broadcast

`Server::broadcast`, with the buffer pool it takes its frames from, and
`Server::send` with the pool made explicit in the same way.

A call takes its buffer from the stack of the thread that calls. The posted
handler runs on whichever I/O thread picks it up and takes its buffers from
the stack of that thread. So both stacks are arguments, and nothing relates
them.

`sessions` is an `unordered_map`: the handler visits its entries in an order
the program may not rely on. The order is an argument of each handler, so two
of them may differ in it.

## Main definitions

* `serverPoolSize`: The limit of the pool of a server.
* `Server.sendFrom`: `send` on the stack of the calling thread.
* `Server.broadcast`, `Server.onBroadcast`: The call, and the handler it posts.
* `BroadcastAction`, `Server.broadcastStep`: A step of the server, or the
  handler of some broadcast.
-/

namespace ProjectNight

open Wire Std

/-- `max_size_per_thread` of the pool in `Server::Impl`. -/
def serverPoolSize : Nat := 64

namespace Server

def sendFrom (pool : List Buffer) (s : Server) (sessionId : UInt32) (data : Bytes) :
    Server × List Buffer :=
  if data.isEmpty ∨ data.length > maxPayloadSize then (s, pool)
  else if s.queue.shuttingDown then (s, pool)
  else
    let (frame, pool) := BufferPool.buildDataFrame pool data
    if frame.data.isEmpty then (s, pool)
    else ({ s with strand := s.strand ++ [.send sessionId frame.data] }, pool)

/-- `broadcast`: the template that the posted handler carries, if one is
    posted. -/
def broadcast (pool : List Buffer) (s : Server) (data : Bytes) : Option Buffer × List Buffer :=
  if data.isEmpty ∨ data.length > maxPayloadSize then (none, pool)
  else if s.queue.shuttingDown then (none, pool)
  else
    let (frameTemplate, pool) := BufferPool.buildDataFrame pool data
    if frameTemplate.data.isEmpty then (none, pool) else (some frameTemplate, pool)

/-- The body of the loop over the sessions. -/
def enqueueClone (frameTemplate : Buffer) (state : Server × List Buffer) (sessionId : UInt32) :
    Server × List Buffer :=
  let (s, pool) := state
  let (frame, pool) := BufferPool.cloneFrame pool frameTemplate.data
  (s.withSession sessionId (fun session => session.enqueueRawFrame frame.data), pool)

/-- The handler that `broadcast` posts. -/
def onBroadcast (it : Iteration) (pool : List Buffer) (s : Server) (frameTemplate : Buffer) :
    Server × List Buffer :=
  if s.queue.shuttingDown then (s, BufferPool.release serverPoolSize pool frameTemplate)
  else
    let ids := it.order (UnorderedSet.ofKeys s.sessions.keys)
    let (s, pool) := ids.foldl (enqueueClone frameTemplate) (s, pool)
    (s, BufferPool.release serverPoolSize pool frameTemplate)

end Server

/-- A handler or a call as before, or the handler of some broadcast, on an I/O
    thread with some stack. -/
inductive BroadcastAction where
  | step (action : Server.Action)
  | onBroadcast (it : Iteration) (pool : List Buffer) (frameTemplate : Buffer)

def Server.broadcastStep (s : Server) : BroadcastAction → Option Server
  | .step action => s.step action
  | .onBroadcast it pool frameTemplate => some (s.onBroadcast it pool frameTemplate).1

end ProjectNight
