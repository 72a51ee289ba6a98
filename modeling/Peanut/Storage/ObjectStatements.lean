import Peanut.Library.Interleaving
import Peanut.Storage.Files

/-!
# Putting and deleting an object, one operation at a time

`put_object_with_metadata` and `delete_object` change the files in several operations, and
a request that is given up midway leaves what the first of them have done.  Here both are
machines that execute one operation of the file system per step.
-/

namespace Peanut

open Relational Interleaving StorageFiles

/-! ### Putting an object -/

inductive PutObjectStage where
  | received
  | parentMade
  | metadataParentMade
  | previousRead (metadata : ObjectMetadata)
  | dataWritten (metadata : ObjectMetadata)
  | metadataParentMadeAgain (metadata : ObjectMetadata)
  | completed (metadata : ObjectMetadata)
  | refused (error : IoError)

structure PutObjectCall where
  bucket : Namespace
  key : String
  data : List UInt8
  contentType : Option String
  details : ObjectDetails := {}
  stage : PutObjectStage

namespace PutObjectCall

/-- The directories of the object, after both paths were resolved. -/
def makeParent (root : FsPath) (t : StorageFiles) (c : PutObjectCall) :
    Except IoError StorageFiles := do
  let path ← root.resolveObjectPath c.bucket.text c.key
  let _ ← root.resolveMetadataPath c.bucket.text c.key
  t.createParent path

def makeMetadataParent (root : FsPath) (t : StorageFiles) (c : PutObjectCall) :
    Except IoError StorageFiles := do
  let metadataPath ← root.resolveMetadataPath c.bucket.text c.key
  t.createParent metadataPath

def writeData (root : FsPath) (t : StorageFiles) (c : PutObjectCall) :
    Except IoError StorageFiles := do
  let path ← root.resolveObjectPath c.bucket.text c.key
  t.writeFile path (.bytes c.data)

def storeMetadata (root : FsPath) (t : StorageFiles) (c : PutObjectCall)
    (metadata : ObjectMetadata) : Except IoError StorageFiles := do
  let metadataPath ← root.resolveMetadataPath c.bucket.text c.key
  t.writeFile metadataPath (.metadata metadata)

def step (root : FsPath) (dg : Digests) (now : String) (t : StorageFiles) (c : PutObjectCall) :
    StorageFiles × PutObjectCall :=
  let refuse := fun e => (t, { c with stage := .refused e })
  match c.stage with
  | .received =>
      Outcome.resume (c.makeParent root t) refuse fun t => (t, { c with stage := .parentMade })
  | .parentMade =>
      Outcome.resume (c.makeMetadataParent root t) refuse fun t =>
      (t, { c with stage := .metadataParentMade })
  | .metadataParentMade =>
      let previous := (readMetadata root t c.bucket c.key).toOption
      let metadata := newMetadata dg now previous c.data c.contentType c.details
      (t, { c with stage := .previousRead metadata })
  | .previousRead metadata =>
      Outcome.resume (c.writeData root t) refuse fun t =>
      (t, { c with stage := .dataWritten metadata })
  | .dataWritten metadata =>
      Outcome.resume (c.makeMetadataParent root t) refuse fun t =>
      (t, { c with stage := .metadataParentMadeAgain metadata })
  | .metadataParentMadeAgain metadata =>
      Outcome.resume (c.storeMetadata root t metadata) refuse fun t =>
      (t, { c with stage := .completed metadata })
  | .completed _ => (t, c)
  | .refused _ => (t, c)

def reply (c : PutObjectCall) : Option (Except IoError ObjectMetadata) :=
  match c.stage with
  | .completed metadata => some (.ok metadata)
  | .refused e => some (.error e)
  | _ => none

end PutObjectCall

/-! ### Deleting an object -/

inductive DeleteObjectStage where
  | received
  | dataRemoved
  | completed
  | refused (error : IoError)

structure DeleteObjectCall where
  bucket : Namespace
  key : String
  stage : DeleteObjectStage

namespace DeleteObjectCall

/-- The data goes, after both paths were resolved. -/
def removeData (root : FsPath) (t : StorageFiles) (c : DeleteObjectCall) :
    Except IoError StorageFiles := do
  let path ← root.resolveObjectPath c.bucket.text c.key
  let _ ← root.resolveMetadataPath c.bucket.text c.key
  (t.removeFile path.names).mapError ioError

/-- Metadata that is missing is no error. -/
def removeMetadata (root : FsPath) (t : StorageFiles) (c : DeleteObjectCall) :
    Except IoError StorageFiles := do
  let metadataPath ← root.resolveMetadataPath c.bucket.text c.key
  match t.removeFile metadataPath.names with
  | .ok t => .ok t
  | .error .notFound => .ok t
  | .error e => .error (ioError e)

/-- A delete draws nothing from outside. -/
def step (root : FsPath) (_ : Unit) (t : StorageFiles) (c : DeleteObjectCall) :
    StorageFiles × DeleteObjectCall :=
  let refuse := fun e => (t, { c with stage := .refused e })
  match c.stage with
  | .received =>
      Outcome.resume (c.removeData root t) refuse fun t => (t, { c with stage := .dataRemoved })
  | .dataRemoved =>
      Outcome.resume (c.removeMetadata root t) refuse fun t => (t, { c with stage := .completed })
  | .completed => (t, c)
  | .refused _ => (t, c)

def reply (c : DeleteObjectCall) : Option (Except IoError Unit) :=
  match c.stage with
  | .completed => some (.ok ())
  | .refused e => some (.error e)
  | _ => none

end DeleteObjectCall

/-! ### On their own -/

section Alone

open PutObjectCall (makeParent makeMetadataParent writeData storeMetadata)
open DeleteObjectCall (removeData removeMetadata)

variable (root : FsPath) (dg : Digests) (now : String) (t : StorageFiles) (bucket : Namespace)
  (key : String)

/-- On its own, the machine computes `putObjectWithMetadata`. -/
theorem putObject_alone (data : List UInt8) (contentType : Option String)
    (details : ObjectDetails) :
    (alone (PutObjectCall.step root dg) now 6 t
        ⟨bucket, key, data, contentType, details, .received⟩).1 =
        (putObjectWithMetadata root dg now t bucket key data contentType details).1 ∧
      (alone (PutObjectCall.step root dg) now 6 t
          ⟨bucket, key, data, contentType, details, .received⟩).2.reply =
        some (putObjectWithMetadata root dg now t bucket key data contentType details).2 := by
  unfold putObjectWithMetadata writeMetadata
  cases hpath : root.resolveObjectPath bucket.text key with
  | error e => simp [alone, PutObjectCall.step, makeParent, PutObjectCall.reply, hpath]
  | ok path =>
    cases hmetadata : root.resolveMetadataPath bucket.text key with
    | error e =>
      simp [alone, PutObjectCall.step, makeParent, PutObjectCall.reply, hpath, hmetadata]
    | ok metadataPath =>
      cases hparent : t.createParent path with
      | error e =>
        simp [alone, PutObjectCall.step, makeParent, PutObjectCall.reply, hpath, hmetadata,
          hparent]
      | ok t₁ =>
        cases hparent' : t₁.createParent metadataPath with
        | error e =>
          simp [alone, PutObjectCall.step, makeParent, makeMetadataParent, PutObjectCall.reply,
            hpath, hmetadata, hparent, hparent']
        | ok t₂ =>
          cases hwrite : t₂.writeFile path (.bytes data) with
          | error e =>
            simp [alone, PutObjectCall.step, makeParent, makeMetadataParent, writeData,
              PutObjectCall.reply, hpath, hmetadata, hparent, hparent', hwrite]
          | ok t₃ =>
            cases hagain : t₃.createParent metadataPath with
            | error e =>
              simp [alone, PutObjectCall.step, makeParent, makeMetadataParent, writeData,
                PutObjectCall.reply, hpath, hmetadata, hparent, hparent', hwrite, hagain,
                Except.map]
            | ok t₄ =>
              cases hstore : t₄.writeFile metadataPath (.metadata (newMetadata dg now
                (readMetadata root t₂ bucket key).toOption data contentType details)) with
              | error e =>
                simp [alone, PutObjectCall.step, makeParent, makeMetadataParent, writeData,
                  storeMetadata, PutObjectCall.reply, hpath, hmetadata, hparent, hparent', hwrite,
                  hagain, hstore, Except.map]
              | ok t₅ =>
                simp [alone, PutObjectCall.step, makeParent, makeMetadataParent, writeData,
                  storeMetadata, PutObjectCall.reply, hpath, hmetadata, hparent, hparent', hwrite,
                  hagain, hstore, Except.map]

/-- On its own, the machine computes `deleteObject`. -/
theorem deleteObject_alone :
    (alone (DeleteObjectCall.step root) () 2 t ⟨bucket, key, .received⟩).1 =
        (deleteObject root t bucket key).1 ∧
      (alone (DeleteObjectCall.step root) () 2 t ⟨bucket, key, .received⟩).2.reply =
        some (deleteObject root t bucket key).2 := by
  unfold deleteObject
  cases hpath : root.resolveObjectPath bucket.text key with
  | error e => simp [alone, DeleteObjectCall.step, removeData, DeleteObjectCall.reply, hpath]
  | ok path =>
    cases hmetadata : root.resolveMetadataPath bucket.text key with
    | error e =>
      simp [alone, DeleteObjectCall.step, removeData, DeleteObjectCall.reply, hpath, hmetadata]
    | ok metadataPath =>
      cases hremove : t.removeFile path.names with
      | error e =>
        simp [alone, DeleteObjectCall.step, removeData, DeleteObjectCall.reply, hpath, hmetadata,
          hremove]
      | ok t₁ =>
        cases hremove' : t₁.removeFile metadataPath.names with
        | error e =>
          cases e <;>
            simp [alone, DeleteObjectCall.step, removeData, removeMetadata,
              DeleteObjectCall.reply, hpath, hmetadata, hremove, hremove']
        | ok t₂ =>
          simp [alone, DeleteObjectCall.step, removeData, removeMetadata, DeleteObjectCall.reply,
            hpath, hmetadata, hremove, hremove']

end Alone

end Peanut
