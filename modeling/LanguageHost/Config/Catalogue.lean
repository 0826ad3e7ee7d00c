import LanguageHost.Config.Entry

/-!
The language servers known without any configuration: the defaults, each found by its languages before
any other, and the registry behind them.
-/
namespace LanguageHost.Catalogue

def package (id : String) : PackageOrigin := ⟨id, none, none⟩

def typescript : RegistryEntry where
  name := "typescript-language-server"
  description := "TypeScript & JavaScript Language Server"
  homepage := some "https://github.com/typescript-language-server/typescript-language-server"
  licenses := ["MIT"]
  languages := ["typescript", "javascript"]
  extensions := ["ts", "tsx", "js", "jsx", "mjs", "cjs"]
  source := package "pkg:npm/typescript-language-server@4.3.3?extra_packages=typescript"
  executables := ⟨"typescript-language-server", [], ["--stdio"]⟩
  initOptions := none

def python : RegistryEntry where
  name := "pyright"
  description := "Static type checker and language server for Python"
  homepage := some "https://github.com/microsoft/pyright"
  licenses := ["MIT"]
  languages := ["python"]
  extensions := ["py", "pyi"]
  source := package "pkg:npm/pyright@1.1.381"
  executables := ⟨"pyright-langserver", ["pyright"], ["--stdio"]⟩
  initOptions := none

def rust : RegistryEntry where
  name := "rust-analyzer"
  description := "Implementation of Language Server Protocol for Rust"
  homepage := some "https://rust-analyzer.github.io/"
  licenses := ["MIT", "Apache-2.0"]
  languages := ["rust"]
  extensions := ["rs"]
  source := ⟨"pkg:github/rust-lang/rust-analyzer@2024-09-23",
    some "rust-analyzer-\x7btarget\x7d.gz", none⟩
  executables := ⟨"rust-analyzer-\x7btarget\x7d", [], []⟩
  initOptions := none

def go : RegistryEntry where
  name := "gopls"
  description := "Official Go language server"
  homepage := some "https://github.com/golang/tools/tree/master/gopls"
  licenses := ["BSD-3-Clause"]
  languages := ["go"]
  extensions := ["go"]
  source := package "pkg:golang/golang.org/x/tools/gopls@v0.16.2"
  executables := ⟨"gopls", [], []⟩
  initOptions := none

def bash : RegistryEntry where
  name := "bash-language-server"
  description := "A language server for Bash"
  homepage := some "https://github.com/bash-lsp/bash-language-server"
  licenses := ["MIT"]
  languages := ["bash", "sh"]
  extensions := ["sh", "bash"]
  source := package "pkg:npm/bash-language-server@5.4.0"
  executables := ⟨"bash-language-server", [], ["start"]⟩
  initOptions := none

def lua : RegistryEntry where
  name := "lua-language-server"
  description := "A language server that offers Lua language support"
  homepage := some "https://github.com/LuaLS/lua-language-server"
  licenses := ["MIT"]
  languages := ["lua"]
  extensions := ["lua"]
  source := ⟨"pkg:github/LuaLS/lua-language-server@3.10.6",
    some "lua-language-server-\x7bversion\x7d-\x7bos\x7d-\x7barch\x7d.tar.gz", none⟩
  executables := ⟨"bin/lua-language-server", [], []⟩
  initOptions := none

def markdown : RegistryEntry where
  name := "marksman"
  description :=
    "Write Markdown with code assist and intelligence in the comfort of your favourite editor"
  homepage := some "https://github.com/artempyanykh/marksman"
  licenses := ["MIT"]
  languages := ["markdown"]
  extensions := ["md", "markdown"]
  source := ⟨"pkg:github/artempyanykh/marksman@2023-12-09",
    some "marksman-\x7bos\x7d-\x7barch\x7d", none⟩
  executables := ⟨"marksman-\x7bos\x7d-\x7barch\x7d", [], ["server"]⟩
  initOptions := none

def nix : RegistryEntry where
  name := "nil"
  description := "Yet another language server for Nix"
  homepage := some "https://github.com/oxalica/nil"
  licenses := ["MIT", "Apache-2.0"]
  languages := ["nix"]
  extensions := ["nix"]
  source := ⟨"pkg:github/oxalica/nil@2024-08-06", none,
    some "cargo build --release --bin nil && cp target/release/nil nil"⟩
  executables := ⟨"nil", [], []⟩
  initOptions := none

def pythonServer : RegistryEntry where
  name := "python-lsp-server"
  description := "Fork of the python-language-server project, maintained by the Spyder IDE team " ++
    "and the community"
  homepage := some "https://github.com/python-lsp/python-lsp-server"
  licenses := ["MIT"]
  languages := ["python"]
  extensions := ["py"]
  source := package "pkg:pypi/python-lsp-server@1.12.0?extra=all"
  executables := ⟨"pylsp", [], []⟩
  initOptions := none

def ruby : RegistryEntry where
  name := "solargraph"
  description := "Ruby language server"
  homepage := some "https://solargraph.org/"
  licenses := ["MIT"]
  languages := ["ruby"]
  extensions := ["rb", "rake"]
  source := package "pkg:gem/solargraph@0.50.0"
  executables := ⟨"solargraph", [], ["stdio"]⟩
  initOptions := none

def toml : RegistryEntry where
  name := "taplo"
  description := "A TOML toolkit with a language server"
  homepage := some "https://taplo.tamasfe.dev/"
  licenses := ["MIT"]
  languages := ["toml"]
  extensions := ["toml"]
  source := package "pkg:cargo/taplo-cli@0.9.3?features=lsp"
  executables := ⟨"taplo", [], ["lsp", "stdio"]⟩
  initOptions := none

def templ : RegistryEntry where
  name := "templ"
  description := "A language for writing HTML user interfaces in Go"
  homepage := some "https://templ.guide"
  licenses := ["MIT"]
  languages := ["templ"]
  extensions := ["templ"]
  source := package "pkg:golang/github.com/a-h/templ@v0.2.771#cmd/templ"
  executables := ⟨"templ", [], ["lsp"]⟩
  initOptions := none

def yaml : RegistryEntry where
  name := "yaml-language-server"
  description := "YAML language server"
  homepage := some "https://github.com/redhat-developer/yaml-language-server"
  licenses := ["MIT"]
  languages := ["yaml"]
  extensions := ["yaml", "yml"]
  source := package "pkg:npm/yaml-language-server@1.15.0"
  executables := ⟨"yaml-language-server", [], ["--stdio"]⟩
  initOptions := none

/-- Entries under each of their languages; one without languages stands under its name. -/
def byLanguage (entries : List RegistryEntry) : Table RegistryEntry :=
  entries.foldl (fun t e =>
    if e.languages.isEmpty then t.insert e.name e
    else e.languages.foldl (fun t l => t.insert l e) t) []

def defaults : Table RegistryEntry := byLanguage [typescript, python, rust, go]

def registry : Table RegistryEntry :=
  byLanguage [bash, lua, markdown, nix, pythonServer, ruby, toml, templ, yaml]

end LanguageHost.Catalogue
