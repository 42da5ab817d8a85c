/-!
# What the metadata service tells

For an agent and for a manifest project the service names the repository that
holds it and the server that stores the repository.
-/

namespace ManifestRelay.Metadata

/-- How to reach the server that stores a repository. -/
structure RepositoryServer where
  address : String
  token : String
  features : List (String × String)
deriving DecidableEq, Repr, Inhabited

structure Repository where
  storageName : String
  relativePath : String
  glRepository : String
  glProjectPath : String
deriving DecidableEq, Repr, Inhabited

structure AgentInfo where
  id : Int
  projectId : Int
  name : String
  server : RepositoryServer
  repository : Repository
deriving DecidableEq, Repr, Inhabited

structure ProjectInfo where
  projectId : Int
  server : RepositoryServer
  repository : Repository
deriving DecidableEq, Repr, Inhabited

end ManifestRelay.Metadata
