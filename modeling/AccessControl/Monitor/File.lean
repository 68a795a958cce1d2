import AccessControl.Monitor.Error

namespace AccessControl.Monitor

inductive File
  | text (contents : String)
  | unreadable

def File.read : File → Except Error String
  | text contents => .ok contents
  | unreadable => .error .unreadableFile

end AccessControl.Monitor
