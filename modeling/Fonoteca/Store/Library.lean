import Fonoteca.Store.Location
import Fonoteca.Store.Request

/-!
# A library in use

A library in use is a store together with the disk that its tables come from and go back to.
Opening the library again reads them from there: what the store knew is gone, and only what is in
its file comes back.

* `Disk.openLibrary` opens the library at an address.
* `Library.answer` answers one request, `Library.answerAll` a history of them in order.
-/

set_option autoImplicit false

namespace Fonoteca

/-- A library that has been opened. -/
structure Library where
  /-- The address that it was opened at, and is opened at again. -/
  address : String
  store : Store
  /-- Where its tables are. -/
  place : Database.Place
  disk : Disk Content

/-- Opens the library at an address. -/
def Disk.openLibrary (d : Disk Content) (address : String) : Except StoreError Library :=
  match d.openDatabase address with
  | (.ok (store, place), disk) => .ok { address, store, place, disk }
  | (.error e, _) => .error e

namespace Library

/-- Closes the library; its tables are in their file then. -/
def close (l : Library) : Library :=
  { l with
    store := { l.store with isOpen := false }
    disk := l.disk.settle l.place l.store }

/-- Closes the library if it is open, and opens it again.  It stays closed if that fails. -/
def reopen (l : Library) : Answer × Library :=
  match (l.disk.settle l.place l.store).openDatabase l.address with
  | (.ok (store, place), disk) => (.done, { l with store, place, disk })
  | (.error e, disk) => (.refused e, { l with store := { l.store with isOpen := false }, disk })

/-- Answers a request. -/
def answer (request : Request) : StateM Library Answer :=
  match request with
  | .close => fun l => (.done, l.close)
  | .reopen => reopen
  | request => fun l =>
    let (answer, store) := request.run.run l.store
    (answer, { l with store, disk := l.disk.afterRequest l.place l.store store })

/-- Answers a history of requests in order. -/
def answerAll (requests : List Request) : StateM Library (List Answer) :=
  requests.mapM answer

end Library
end Fonoteca
